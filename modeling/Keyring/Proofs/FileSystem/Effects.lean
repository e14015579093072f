/-
  Keyring.Proofs.FileSystem.Effects
  ────────────────────────────────
  **WHAT A SUCCESSFUL OPERATION HAS DONE.**

  One lemma for each operation by which a file is replaced: where it took
  place, what stood there before, and the tree after it.

  Main results:
    * `makeFolder_eq_ok` — a folder where nothing stood;
    * `reaches_of_makeFolder` — the path of a new folder leads to it;
    * `createTemporary_eq_ok` — a file where nothing stood, which its path
      leads to whatever it holds;
    * `append_eq_ok` — a file that holds more;
    * `rename_eq_ok` — a file gone from one place and now at another;
    * `remove_eq_ok` — a file gone;
    * `IsTemporary.append_eq`, `IsTemporary.remove_eq` — what is written to a
      temporary file, and that it leaves no trace.
-/
import Keyring.Proofs.FileSystem.Change

namespace Keyring.FileSystem

open Keyring.Path (isIdle)

theorem ne_nil_of_node?_eq_none {fs : FileSystem} {place : Location}
    (h : fs.node? place = none) : place ≠ [] := by
  rintro rfl
  cases h

/-! ## §1. Folders. -/

theorem makeFolder_eq_ok {fs after : FileSystem} {p : Path} (h : fs.makeFolder p = .ok after) :
    ∃ e, fs.locateEntry p .exists = .ok e ∧ fs.node? e.place = none
      ∧ after = fs.put e.place .folder := by
  unfold makeFolder at h
  obtain ⟨e, he, h⟩ := bind_eq_ok h
  split at h
  · cases h
  · next hnode =>
    cases h
    exact ⟨e, he, hnode, rfl⟩

/-- **The path of a folder that has been made leads to it.** -/
theorem reaches_of_makeFolder {fs after : FileSystem} {p : Path} (h : fs.makeFolder p = .ok after) :
    ∃ place links, checkPath p = .ok () ∧ fs.node? place = none ∧ after = fs.put place .folder
      ∧ after.Reaches mostLinks (startOf p fs.workingFolder) p.names ⟨place, links⟩ := by
  obtain ⟨e, he, hfree, rfl⟩ := makeFolder_eq_ok h
  obtain ⟨hcheck, ending, arrival, hending, hdot, hup, hreach, hplace, -⟩ :=
    (locateEntry_eq_ok_iff _ _ _ _).1 he
  obtain ⟨hlast, -⟩ := ending?_eq_some hending
  have hne := ne_nil_of_node?_eq_none hfree
  -- the tree grows by one folder: what could be reached still can, and then the new folder
  have hlarger : fs.ExtendsTo (fs.put e.place .folder) := extendsTo_put hne (by simp [hfree]) _
  have hnew : (fs.put e.place .folder).HasFolder e.place :=
    .inl (by rw [node?_put fs .folder hne, if_pos rfl])
  have hstep : (fs.put e.place .folder).Reaches arrival.linksLeft arrival.place [ending.last]
      ⟨e.place, arrival.linksLeft⟩ := by
    refine .down (hlarger.hasFolder hreach.hasFolder_arrival) ?_ hup ?_ (.done hnew)
    · simp [isIdle, hlast, hdot]
    · rw [hlarger.placeIn_eq hreach.hasFolder_arrival, hplace]
  refine ⟨e.place, arrival.linksLeft, hcheck, hfree, rfl, ?_⟩
  rw [namesAmong_of_ending? hending hdot]
  refine (reaches_append_iff _ _ _ _ _ _).2 ⟨arrival, ?_, hstep⟩
  exact reaches_congr (Path.namesAmong_idem ending.before).symm (hreach.extend hlarger)

/-- Where a folder can be reached already, none is made, and its name is said to be taken. -/
theorem makeFolder_of_isFolder {fs : FileSystem} {p : Path} (h : fs.isFolder p = true) :
    fs.makeFolder p = .error .exists := by
  obtain ⟨hcheck, arrival, hreach⟩ := (isFolder_iff fs p).1 h
  unfold makeFolder
  rw [locateEntry_eq, hcheck]
  cases hending : ending? p with
  | none => rfl
  | some e =>
      obtain ⟨hlast, -, trailing, hsegments, -⟩ := ending?_eq_some hending
      -- the walk along the whole path comes through the folder of its last name
      have hwhole : fs.Reaches mostLinks (startOf p fs.workingFolder)
          (e.before ++ e.last :: trailing) arrival := by
        rw [← hsegments]
        exact reaches_congr (Path.namesAmong_idem p.segments) hreach
      obtain ⟨before, hbefore, hlater⟩ := (reaches_append_iff _ _ _ _ _ _).1 hwhole
      show (fs.reach _ _ _ >>= _) >>= _ = _
      rw [reach_of_reaches hbefore]
      show (if (e.last = dot || e.last = dotDot) = true then _ else _) >>= _ = _
      split
      · rfl
      · next hname =>
        rw [Bool.or_eq_true, decide_eq_true_eq, decide_eq_true_eq, not_or] at hname
        have hidle : isIdle e.last = false := by simp [isIdle, hlast, hname.1]
        -- and it goes on from there, so that something stands under the name
        obtain ⟨inner, node, hinner, hnode⟩ := hlater.exists_node hidle hname.2
        simp only [hinner, ok_bind, hnode]

/-! ## §2. Temporary files. -/

theorem slash_not_mem_of_isDigit {c : Char} (h : c.isDigit = true) :
    slash ∉ String.utf8EncodeChar c := by
  have hc : 48 ≤ c.val.toNat ∧ c.val.toNat ≤ 57 := by
    simpa [Char.isDigit, UInt32.le_iff_toNat_le] using h
  have hbyte : String.utf8EncodeChar c = [UInt8.ofNat c.val.toNat] := by
    unfold String.utf8EncodeChar
    rw [if_pos (by omega)]
  rw [hbyte, List.mem_singleton]
  intro hs
  have hvalue : c.val.toNat % 256 = 47 := by
    have := congrArg UInt8.toNat hs
    rw [UInt8.toNat_ofNat'] at this
    exact this.symm
  omega

theorem temporaryName_eq (n : Nat) :
    ∃ rest, temporaryName n = [0x2E, 0x74, 0x6D, 0x70] ++ rest ∧ slash ∉ rest := by
  have hstart : Bytes.ofString ".tmp" = [0x2E, 0x74, 0x6D, 0x70] := by decide
  unfold temporaryName
  rw [Bytes.ofString_append, hstart, Bytes.ofString_ofList]
  refine ⟨_, rfl, ?_⟩
  rw [List.mem_flatMap]
  rintro ⟨c, hc, hs⟩
  refine slash_not_mem_of_isDigit ?_ hs
  rcases List.mem_append.1 hc with hc | hc
  · rw [List.eq_of_mem_replicate hc]
    rfl
  · exact Nat.isDigit_of_mem_toDigits (by decide) (by decide) hc

/-- A temporary name is a name: one segment, which names something and does not go up. -/
theorem temporaryName_isName (n : Nat) :
    slash ∉ temporaryName n ∧ isIdle (temporaryName n) = false ∧ temporaryName n ≠ dotDot := by
  obtain ⟨rest, hname, hrest⟩ := temporaryName_eq n
  rw [hname]
  refine ⟨?_, rfl, ?_⟩
  · rw [List.mem_append, not_or]
    exact ⟨by decide, hrest⟩
  · intro h
    cases h

theorem freeName?_eq_some {fs : FileSystem} {folder : Location} {name : Bytes}
    (h : fs.freeName? folder = some name) :
    fs.node? (name :: folder) = none ∧ ∃ n, name = temporaryName n := by
  unfold freeName? at h
  refine ⟨by simpa using List.find?_some h, ?_⟩
  obtain ⟨n, -, hn⟩ := List.mem_map.1 (List.mem_of_find?_eq_some h)
  exact ⟨n, hn.symm⟩

theorem checkPath_eq_ok_iff (p : Path) :
    checkPath p = .ok () ↔ 0 ∉ p.bytes ∧ p.isEmpty = false ∧ p.bytes.length ≤ longestPath := by
  unfold checkPath
  by_cases hzero : 0 ∈ p.bytes
  · simp [hzero]
  · rw [if_neg (by simpa using hzero)]
    cases hempty : p.isEmpty with
    | true => simp
    | false =>
        rw [if_neg (by simp)]
        by_cases hlong : longestPath < p.bytes.length
        · rw [if_pos hlong]
          simp [hzero, hlong]
        · rw [if_neg hlong]
          simp [hzero]
          omega

/-- Where a temporary file is put, if its folder is given by a path from the working folder. -/
theorem isAbsolute_path (place : Location) : place.path.isAbsolute = true := rfl

/-- A path is no harder to hand to the system than a longer one that ends in it. -/
theorem checkPath_of_push {front back : Path} (hback : back.isEmpty = false)
    (h : checkPath (front.push back.bytes) = .ok ()) : checkPath back = .ok () := by
  rw [checkPath_eq_ok_iff] at h ⊢
  obtain ⟨hzero, -, hlong⟩ := h
  unfold Path.push at hzero hlong
  refine ⟨fun hmem => hzero ?_, hback, ?_⟩
  · split <;> simp [hmem]
  · split at hlong
    · rw [List.length_append] at hlong
      omega
    · rw [List.length_append, List.length_cons] at hlong
      omega

/-- The path of a folder, from the root. -/
def fromRoot (fs : FileSystem) (folder : Path) : Except FileError Path :=
  if folder.isAbsolute then .ok folder
  else fs.workingPath.map fun working => working.push folder.bytes

/-- Creates a temporary file in the folder of which this is the path from the root. -/
def createTemporaryIn (fs : FileSystem) (around : Path) :
    Except FileError (Path × FileSystem) := do
  let place ← fs.locate around
  fs.requireFolder place
  match fs.freeName? place with
  | none => .error .exists
  | some name =>
    checkPath (around.push name)
    let own ← fs.placeIn place name
    .ok (around.push name, fs.put own (.file [] ownerOnly))

theorem createTemporary_eq (fs : FileSystem) (folder : Path) :
    fs.createTemporary folder = fs.fromRoot folder >>= fs.createTemporaryIn := by
  unfold createTemporary fromRoot
  split <;> rfl

theorem fromRoot_eq_ok {fs : FileSystem} {folder around : Path} (hfolder : folder.isEmpty = false)
    (h : fs.fromRoot folder = .ok around) :
    around.isAbsolute = true ∧ (checkPath around = .ok () → checkPath folder = .ok ()) := by
  unfold fromRoot at h
  split at h
  · next habsolute =>
    cases h
    exact ⟨habsolute, id⟩
  -- a relative folder is taken from the working folder
  · cases hworking : fs.workingPath with
    | error cause => rw [hworking] at h; cases h
    | ok working =>
        rw [hworking] at h
        cases h
        refine ⟨Path.isAbsolute_push ?_ _, checkPath_of_push hfolder⟩
        unfold workingPath at hworking
        split at hworking
        · cases hworking
          exact isAbsolute_path _
        · cases hworking

/-- A place for a temporary file: nothing stands there, and a path leads to whatever file is put
there for its owner. -/
structure IsTemporary (fs : FileSystem) (own : Location) (p : Path) : Prop where
  free : fs.node? own = none
  found : ∀ content noName,
    (fs.put own (.file content ownerOnly)).locateEntry p noName = .ok ⟨own, false⟩

theorem IsTemporary.ne_nil {fs : FileSystem} {own : Location} {p : Path}
    (h : fs.IsTemporary own p) : own ≠ [] :=
  ne_nil_of_node?_eq_none h.free

/-- **A temporary file is a new file, and its path leads to it.** -/
theorem createTemporary_eq_ok {fs after : FileSystem} {folder path : Path}
    (hfolder : folder.isEmpty = false) (h : fs.createTemporary folder = .ok (path, after)) :
    checkPath folder = .ok () ∧ ∃ own, fs.IsTemporary own path
      ∧ after = fs.put own (.file [] ownerOnly) := by
  rw [createTemporary_eq] at h
  obtain ⟨around, haround, h⟩ := bind_eq_ok h
  obtain ⟨habsolute, hcheckFolder⟩ := fromRoot_eq_ok hfolder haround
  obtain ⟨place, hlocate, h⟩ := bind_eq_ok h
  obtain ⟨_, hhere, h⟩ := bind_eq_ok h
  cases hname : fs.freeName? place with
  | none => rw [hname] at h; cases h
  | some name =>
      rw [hname] at h
      obtain ⟨_, hcheck, h⟩ := bind_eq_ok h
      obtain ⟨own, hown, h⟩ := bind_eq_ok h
      cases h
      have here := (fs.requireFolder_eq_ok_iff place).1 hhere
      obtain ⟨hfree, n, rfl⟩ := freeName?_eq_some hname
      obtain ⟨rfl, -, -⟩ := place_of_placeIn hown
      obtain ⟨hslash, hidle, hup⟩ := temporaryName_isName n
      refine ⟨hcheckFolder ((locate_eq_ok_iff fs around place).1 hlocate).1, _, ⟨hfree, ?_⟩, rfl⟩
      intro content noName
      -- the path is found before the file is put there, and a larger tree keeps that
      apply locateEntry_extend (extendsTo_put (List.cons_ne_nil _ _) (by simp [hfree]) _)
      exact locateEntry_push hlocate here habsolute hslash hidle hup hcheck hown noName

/-! ## §3. Writes, moves and removals. -/

/-- **A write leaves a file that holds more, or leaves everything as it is.** -/
theorem append_eq_ok {fs after : FileSystem} {p : Path} {content : Bytes}
    (h : fs.append p content = .ok after) :
    after = fs ∨ ∃ place before mode, fs.locateEntry p .isFolder = .ok ⟨place, false⟩
      ∧ fs.node? place = some (.file before mode)
      ∧ after = fs.put place (.file (before ++ content) mode) := by
  unfold append at h
  obtain ⟨⟨place, hasSlash⟩, hplace, h⟩ := bind_eq_ok h
  split at h
  · cases h
  · cases h
  · cases h
  · cases h
  · next before mode hnode =>
    split at h
    · cases h
    · next hslash =>
      obtain rfl : hasSlash = false := by simpa using hslash
      cases h
      exact .inr ⟨place, before, mode, hplace, hnode, rfl⟩
  -- a device takes what is written and holds nothing
  · split at h
    · cases h
    · cases h
      exact .inl rfl

/-- **What is moved is gone from where it was and stands under the other name.** -/
theorem rename_eq_ok {fs after : FileSystem} {source target : Path}
    (h : fs.rename source target = .ok after) :
    ∃ leaving arriving node, fs.locateEntry source .busy = .ok ⟨leaving, false⟩
      ∧ fs.locateEntry target .busy = .ok ⟨arriving, false⟩
      ∧ fs.node? leaving = some node ∧ node ≠ .folder ∧ fs.node? arriving ≠ some .folder
      ∧ after = (fs.erase leaving).put arriving node := by
  unfold rename at h
  obtain ⟨_, -, h⟩ := bind_eq_ok h
  obtain ⟨⟨leaving, leavingSlash⟩, hleaving, h⟩ := bind_eq_ok h
  obtain ⟨⟨arriving, arrivingSlash⟩, harriving, h⟩ := bind_eq_ok h
  -- there is something to move, and it is no folder
  split at h
  · cases h
  · cases h
  · next node hfolder hnode =>
    split at h
    · cases h
    -- neither path ends in a slash, and no folder is replaced
    · next hslash =>
      obtain ⟨hleavingSlash, harrivingSlash⟩ :
          leavingSlash = false ∧ arrivingSlash = false := by simpa using hslash
      subst hleavingSlash harrivingSlash
      split at h
      · cases h
      · next hnot =>
        cases h
        exact ⟨leaving, arriving, node, hleaving, harriving, hnode, hfolder, hnot, rfl⟩

theorem remove_eq_ok {fs after : FileSystem} {p : Path} (h : fs.remove p = .ok after) :
    ∃ place node, fs.locateEntry p .busy = .ok ⟨place, false⟩ ∧ fs.node? place = some node
      ∧ node ≠ .folder ∧ after = fs.erase place := by
  unfold remove at h
  obtain ⟨⟨place, hasSlash⟩, hplace, h⟩ := bind_eq_ok h
  split at h
  · cases h
  · cases h
  · next node hfolder hnode =>
    split at h
    · cases h
    · next hslash =>
      obtain rfl : hasSlash = false := by simpa using hslash
      cases h
      exact ⟨place, node, hplace, hnode, hfolder, rfl⟩

/-- What is put where nothing stood and is then erased has left no trace. -/
theorem erase_put {fs : FileSystem} {place : Location} (hfree : fs.node? place = none)
    (node : Node) : (fs.put place node).erase place = fs := by
  have hnodes : (fs.nodes.filter fun n => n.1 != place) = fs.nodes := by
    refine List.filter_eq_self.2 fun n hn => ?_
    cases place with
    | nil => cases hfree
    | cons name folder =>
        have hlookup := List.lookup_eq_none_iff.1 (show fs.nodes.lookup (name :: folder) = none
          from hfree) n hn
        rwa [bne_comm] at hlookup
  unfold put erase
  rw [List.filter_cons_of_neg (by simp), List.filter_filter]
  simp only [Bool.and_self, hnodes]

/-- Of two nodes put at a place the later one stands there. -/
theorem put_put (fs : FileSystem) (place : Location) (first second : Node) :
    (fs.put place first).put place second = fs.put place second := by
  unfold put
  rw [List.filter_cons_of_neg (by simp), List.filter_filter]
  simp only [Bool.and_self]

namespace IsTemporary

variable {fs : FileSystem} {own : Location} {p : Path}

theorem node?_put (h : fs.IsTemporary own p) (content : Bytes) :
    (fs.put own (.file content ownerOnly)).node? own = some (.file content ownerOnly) := by
  rw [FileSystem.node?_put fs _ h.ne_nil, if_pos rfl]

/-- **What is written to a temporary file comes behind what it holds.** -/
theorem append_eq (h : fs.IsTemporary own p) (before content : Bytes) :
    (fs.put own (.file before ownerOnly)).append p content
      = .ok (fs.put own (.file (before ++ content) ownerOnly)) := by
  unfold append
  rw [h.found]
  simp only [ok_bind, h.node?_put, put_put]
  rfl

/-- **A temporary file that is removed has left no trace.** -/
theorem remove_eq (h : fs.IsTemporary own p) (content : Bytes) :
    (fs.put own (.file content ownerOnly)).remove p = .ok fs := by
  unfold remove
  rw [h.found]
  simp only [ok_bind, h.node?_put]
  rw [erase_put h.free]
  rfl

end IsTemporary

end Keyring.FileSystem
