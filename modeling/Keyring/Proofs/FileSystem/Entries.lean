/-
  Keyring.Proofs.FileSystem.Entries
  ────────────────────────────────
  **THE ENTRY A PATH ENDS IN.**

  A path that ends in a name leads to a folder and a name in it.  This
  module says in terms of `Reaches` what `locateEntry` finds, what stands
  there, and when a path leads on through it.

  Main results:
    * `locateEntry_eq_ok_iff` — the folder reached along all names but the
      last, and the last;
    * `nodeAt_of_locate`     — what a path leads to stands at its place;
    * `nodeNamed_of_entry`, `nodeAt_of_nodeNamed` — what a path names;
    * `locateEntry_push`     — a name pushed is the name of an entry of the
      folder the path leads to.
-/
import Keyring.Proofs.FileSystem.Reach

namespace Keyring.FileSystem

open Keyring.Path (isIdle namesAmong)

/-! ## §1. The end of a path. -/

/-- What follows the last segment is empty. -/
theorem ending?_eq_some {p : Path} {e : Ending} (h : ending? p = some e) :
    e.last ≠ [] ∧ e.hasSlash = p.endsInSlash
      ∧ ∃ trailing, p.segments = e.before ++ e.last :: trailing ∧ ∀ s ∈ trailing, s = [] := by
  unfold ending? at h
  cases hdrop : p.segments.reverse.dropWhile (· == []) with
  | nil => rw [hdrop] at h; cases h
  | cons last before =>
      rw [hdrop] at h
      cases h
      refine ⟨?_, rfl, (p.segments.reverse.takeWhile (· == [])).reverse, ?_, ?_⟩
      -- the search from behind stops at the first piece that is not empty
      · have hhead := List.head?_dropWhile_not (· == []) p.segments.reverse
        rw [hdrop] at hhead
        simpa using hhead
      -- what was passed over stands behind it
      · have hparts := List.takeWhile_append_dropWhile (p := (· == [])) (l := p.segments.reverse)
        rw [hdrop] at hparts
        have hreverse := congrArg List.reverse hparts
        rw [List.reverse_reverse, List.reverse_append, List.reverse_cons,
          List.append_assoc] at hreverse
        exact hreverse.symm
      · intro s hs
        have := List.mem_takeWhile_imp (List.mem_reverse.1 hs)
        simpa using this

/-- Without slashes at the end there is nothing after the last segment. -/
theorem segments_of_ending? {p : Path} {e : Ending} (h : ending? p = some e)
    (hslash : e.hasSlash = false) : p.segments = e.before ++ [e.last] := by
  obtain ⟨hlast, hends, trailing, hsegments, htrailing⟩ := ending?_eq_some h
  rcases List.eq_nil_or_concat trailing with rfl | ⟨front, s, rfl⟩
  · exact hsegments
  · -- an empty last piece means a slash at the end, or an empty path, which has one piece only
    have hs : s = [] := htrailing s (by simp)
    subst hs
    have hconcat : p.segments = (e.before ++ e.last :: front) ++ [[]] := by
      rw [hsegments]
      simp
    cases hempty : p.isEmpty with
    | true =>
        have hbytes : p.bytes = [] := List.isEmpty_iff.1 hempty
        rw [Path.segments, hbytes] at hconcat
        have hlength := congrArg List.length hconcat
        simp [cutAtSlashes] at hlength
        omega
    | false =>
        rw [hends, Path.endsInSlash_of_segments hconcat hempty] at hslash
        cases hslash

/-- A path whose last piece is not empty ends in it. -/
theorem ending?_of_segments {p : Path} {front : List Bytes} {last : Bytes}
    (h : p.segments = front ++ [last]) (hlast : last ≠ []) :
    ending? p = some ⟨front, last, p.endsInSlash⟩ := by
  unfold ending?
  rw [h, List.reverse_append, List.reverse_singleton, List.singleton_append,
    List.dropWhile_cons_of_neg (by simpa using hlast)]
  simp

theorem namesAmong_of_ending? {p : Path} {e : Ending} (h : ending? p = some e)
    (hdot : e.last ≠ dot) : p.names = namesAmong e.before ++ [e.last] := by
  obtain ⟨hlast, -, trailing, hsegments, htrailing⟩ := ending?_eq_some h
  have hname : isIdle e.last = false := by
    cases hidle : isIdle e.last with
    | false => rfl
    | true =>
        rcases (Path.isIdle_iff e.last).1 hidle with h | h
        · exact absurd h hlast
        · exact absurd h hdot
  have hnone : namesAmong trailing = [] := by
    refine List.filter_eq_nil_iff.2 fun s hs => ?_
    rw [htrailing s hs]
    simp
  rw [Path.names_eq, hsegments, Path.namesAmong_append, Path.namesAmong_cons_of_name hname, hnone]

/-! ## §2. What `locateEntry` finds. -/

theorem locateEntry_eq (fs : FileSystem) (p : Path) (noName : FileError) :
    fs.locateEntry p noName = (do
      checkPath p
      match ending? p with
      | none => .error noName
      | some e =>
        let arrival ← fs.reach mostLinks (startOf p fs.workingFolder) e.before
        if e.last = dot || e.last = dotDot then .error noName
        else
          let place ← fs.placeIn arrival.place e.last
          .ok ⟨place, e.hasSlash⟩) := by
  unfold locateEntry reach
  cases checkPath p with
  | error cause => rfl
  | ok _ =>
      cases ending? p with
      | none => rfl
      | some e =>
          -- the walk and the check of the folder that it ends in are one `reach`
          show (fs.walk _ _ _ >>= _) = (fs.walk _ _ _ >>= _) >>= _
          cases fs.walk mostLinks (startOf p fs.workingFolder) e.before with
          | error cause => rfl
          | ok arrival =>
              show (fs.requireFolder _ >>= _) = (fs.requireFolder _ >>= _) >>= _
              cases fs.requireFolder arrival.place <;> rfl

/-- **The entry of a path is the last name in the folder that the segments before lead to.** -/
theorem locateEntry_eq_ok_iff (fs : FileSystem) (p : Path) (noName : FileError) (e : EntryPlace) :
    fs.locateEntry p noName = .ok e ↔ checkPath p = .ok () ∧ ∃ ending arrival,
      ending? p = some ending ∧ ending.last ≠ dot ∧ ending.last ≠ dotDot
      ∧ fs.Reaches mostLinks (startOf p fs.workingFolder) ending.before arrival
      ∧ fs.placeIn arrival.place ending.last = .ok e.place ∧ e.hasSlash = ending.hasSlash := by
  obtain ⟨place, hasSlash⟩ := e
  rw [locateEntry_eq]
  cases checkPath p with
  | error cause =>
      constructor
      · intro h; cases h
      · rintro ⟨h, -⟩; cases h
  | ok _ =>
      constructor
      · intro h
        refine ⟨rfl, ?_⟩
        obtain ⟨_, -, h⟩ := bind_eq_ok h
        cases hending : ending? p with
        | none => rw [hending] at h; cases h
        | some ending =>
            rw [hending] at h
            obtain ⟨arrival, hreach, h⟩ := bind_eq_ok h
            -- `.` and `..` name no entry
            split at h
            · cases h
            · next hname =>
              obtain ⟨inner, hplace, h⟩ := bind_eq_ok h
              cases h
              rw [Bool.or_eq_true, decide_eq_true_eq, decide_eq_true_eq, not_or] at hname
              exact ⟨ending, arrival, rfl, hname.1, hname.2, reaches_of_reach _ _ _ hreach, hplace,
                rfl⟩
      · rintro ⟨-, ending, arrival, hending, hdot, hup, hreach, hplace, rfl⟩
        simp only [hending]
        show (fs.reach _ _ _ >>= _) = _
        rw [reach_of_reaches hreach]
        show (if _ then _ else _) = _
        rw [if_neg (by simp [hdot, hup]), hplace]
        rfl

/-- The entry of a path stands under its last name. -/
theorem place_of_placeIn {fs : FileSystem} {folder place : Location} {name : Bytes}
    (h : fs.placeIn folder name = .ok place) :
    place = name :: folder ∧ fs.node? folder ≠ some .removed ∧ name.length ≤ longestName := by
  unfold placeIn at h
  split at h
  · cases h
  · next hremoved =>
    split at h
    · cases h
    · next hlong =>
      cases h
      exact ⟨rfl, hremoved, by omega⟩

/-! ## §3. What a path leads to. -/

/-- Where a walk along some segments leads, only their names matter. -/
theorem reaches_congr {fs : FileSystem} {links : Nat} {place : Location}
    {segments others : List Bytes} (h : namesAmong segments = namesAmong others)
    {arrival : Arrival} (hreach : fs.Reaches links place segments arrival) :
    fs.Reaches links place others arrival := by
  rw [← reach_eq_ok_iff, ← reach_namesAmong, ← h, reach_namesAmong]
  exact reach_of_reaches hreach

theorem locate_eq_ok_iff (fs : FileSystem) (p : Path) (place : Location) :
    fs.locate p = .ok place ↔ checkPath p = .ok () ∧ ∃ links,
      fs.walk mostLinks (startOf p fs.workingFolder) p.segments = .ok ⟨place, links⟩ := by
  unfold locate
  constructor
  · intro h
    obtain ⟨_, hcheck, h⟩ := bind_eq_ok h
    obtain ⟨arrival, hwalk, h⟩ := bind_eq_ok h
    cases h
    exact ⟨hcheck, arrival.linksLeft, hwalk⟩
  · rintro ⟨hcheck, links, hwalk⟩
    rw [hcheck, hwalk]
    rfl

theorem nodeAt_of_locate {fs : FileSystem} {p : Path} {place : Location}
    (h : fs.locate p = .ok place) {node : Node} (hnode : fs.node? place = some node) :
    fs.nodeAt p = .ok node := by
  unfold nodeAt
  simp only [h, ok_bind, hnode]

/-- **A path leads to a folder if its names do, one after another.** -/
theorem isFolder_iff (fs : FileSystem) (p : Path) :
    fs.isFolder p = true ↔ checkPath p = .ok ()
      ∧ ∃ arrival, fs.Reaches mostLinks (startOf p fs.workingFolder) p.names arrival := by
  have hnames : namesAmong p.names = namesAmong p.segments := Path.namesAmong_idem p.segments
  constructor
  · intro h
    unfold isFolder nodeAt at h
    cases hlocate : fs.locate p with
    | error cause => rw [hlocate] at h; cases h
    | ok place =>
        rw [hlocate] at h
        obtain ⟨hcheck, links, hwalk⟩ := (locate_eq_ok_iff fs p place).1 hlocate
        -- of all nodes only a folder, removed or not, is a place to go on from
        have hhere : fs.HasFolder place := by
          unfold HasFolder
          cases hnode : fs.node? place with
          | none => simp [hnode, bind, Except.bind] at h
          | some node => cases node <;> simp [hnode, bind, Except.bind] at h ⊢
        exact ⟨hcheck, ⟨place, links⟩, reaches_congr hnames.symm
          ((reaches_iff_walk _ _ _ _ _).2 ⟨hwalk, hhere⟩)⟩
  · rintro ⟨hcheck, arrival, hreach⟩
    obtain ⟨hwalk, -⟩ := (reaches_iff_walk _ _ _ _ _).1 (reaches_congr hnames hreach)
    have hlocate := (locate_eq_ok_iff fs p arrival.place).2 ⟨hcheck, arrival.linksLeft, hwalk⟩
    unfold isFolder
    rcases hreach.hasFolder_arrival with hnode | hnode <;> rw [nodeAt_of_locate hlocate hnode]

/-- Up to its last name, a path that leads anywhere leads through folders. -/
theorem reaches_of_locate {fs : FileSystem} {p : Path} {place : Location}
    (h : fs.locate p = .ok place) {front back : List Bytes} {name : Bytes}
    (hnames : p.names = front ++ name :: back) :
    ∃ arrival, fs.Reaches mostLinks (startOf p fs.workingFolder) front arrival := by
  obtain ⟨-, links, hwalk⟩ := (locate_eq_ok_iff fs p place).1 h
  obtain ⟨before, after, hsegments, hfront, hafter⟩ := List.filter_eq_append_iff.1 hnames
  obtain ⟨idle, rest, rfl, hidle, -⟩ := List.filter_eq_cons_iff.1 hafter
  rw [hsegments, ← List.append_assoc, walk_append_cons] at hwalk
  cases hreach : fs.reach mostLinks (startOf p fs.workingFolder) (before ++ idle) with
  | error cause => rw [hreach] at hwalk; cases hwalk
  | ok arrival =>
      -- between the names there may be segments that name nothing
      refine ⟨arrival, reaches_congr ?_ (reaches_of_reach _ _ _ hreach)⟩
      have hnone : namesAmong idle = [] := List.filter_eq_nil_iff.2 hidle
      rw [Path.namesAmong_append, hnone, List.append_nil, ← hfront]
      exact (Path.namesAmong_idem before).symm

/-- The walk along a path goes to the folder of its entry first, and then takes the last name as one
more step. -/
theorem walk_segments_of_entry {fs : FileSystem} {p : Path} {ending : Ending} {arrival : Arrival}
    {place : Location} (hending : ending? p = some ending) (hslash : ending.hasSlash = false)
    (hdot : ending.last ≠ dot) (hup : ending.last ≠ dotDot)
    (hreach : fs.Reaches mostLinks (startOf p fs.workingFolder) ending.before arrival)
    (hplace : fs.placeIn arrival.place ending.last = .ok place) :
    fs.walk mostLinks (startOf p fs.workingFolder) p.segments
      = fs.walkFrom arrival.linksLeft arrival.place place [] := by
  obtain ⟨hlast, -⟩ := ending?_eq_some hending
  rw [segments_of_ending? hending hslash, walk_append_cons, reach_of_reaches hreach]
  show fs.walk arrival.linksLeft arrival.place [ending.last] = _
  rw [walk_cons, requireFolder_of_hasFolder hreach.hasFolder_arrival]
  show (if _ then _ else if _ then _ else _) = _
  rw [if_neg (by simp [Path.isIdle_iff, hlast, hdot]), if_neg hup, hplace]
  rfl

/-- **What a path leads to stands at its entry, if that is no link.** -/
theorem locate_of_entry {fs : FileSystem} {p : Path} {noName : FileError} {place : Location}
    (h : fs.locateEntry p noName = .ok ⟨place, false⟩) {node : Node}
    (hnode : fs.node? place = some node) (hlink : ∀ target, node ≠ .link target) :
    fs.locate p = .ok place := by
  obtain ⟨hcheck, ending, arrival, hending, hdot, hup, hreach, hplace, hslash⟩ :=
    (locateEntry_eq_ok_iff fs p noName _).1 h
  refine (locate_eq_ok_iff fs p place).2 ⟨hcheck, arrival.linksLeft, ?_⟩
  rw [walk_segments_of_entry hending hslash.symm hdot hup hreach hplace]
  unfold walkFrom
  rw [hnode]
  cases node with
  | link target => exact absurd rfl (hlink target)
  | _ => exact walk_nil fs _ _

/-- A file at the entry of a path is read by the path. -/
theorem read_of_entry {fs : FileSystem} {p : Path} {noName : FileError} {place : Location}
    (h : fs.locateEntry p noName = .ok ⟨place, false⟩) {content : Bytes} {mode : Nat}
    (hnode : fs.node? place = some (.file content mode)) : fs.read p = .ok content := by
  unfold read
  rw [nodeAt_of_locate (locate_of_entry h hnode (by simp)) hnode]
  rfl

/-- What stands at the entry of a path is what the path names. -/
theorem nodeNamed_of_entry {fs : FileSystem} {p : Path} {noName : FileError} {place : Location}
    (h : fs.locateEntry p noName = .ok ⟨place, false⟩) {node : Node}
    (hnode : fs.node? place = some node) : fs.nodeNamed p = .ok node := by
  obtain ⟨hcheck, ending, arrival, hending, hdot, hup, hreach, hplace, hslash⟩ :=
    (locateEntry_eq_ok_iff fs p noName _).1 h
  have hentry : fs.locateEntry p .notFound = .ok ⟨place, false⟩ :=
    (locateEntry_eq_ok_iff fs p .notFound _).2
      ⟨hcheck, ending, arrival, hending, hdot, hup, hreach, hplace, hslash⟩
  unfold nodeNamed
  simp only [hending, ← hslash, hdot, hup, decide_false, Bool.or_self, Bool.false_eq_true,
    if_false, hentry, ok_bind, hnode]

/-- What a path names, if that is no link, is what it leads to. -/
theorem nodeAt_of_nodeNamed {fs : FileSystem} {p : Path} {node : Node}
    (h : fs.nodeNamed p = .ok node) (hlink : ∀ target, node ≠ .link target) :
    fs.nodeAt p = .ok node := by
  unfold nodeNamed at h
  cases hending : ending? p with
  | none => simpa only [hending] using h
  | some ending =>
      simp only [hending] at h
      split at h
      · exact h
      -- the path ends in a name, without slashes behind it
      · next hname =>
        obtain ⟨⟨place, hasSlash⟩, hentry, h⟩ := bind_eq_ok h
        obtain ⟨-, other, -, hother, -, -, -, -, hslash⟩ := (locateEntry_eq_ok_iff _ _ _ _).1 hentry
        obtain rfl : ending = other := Option.some.inj (hending.symm.trans hother)
        obtain rfl : hasSlash = false := by
          simp only [Bool.or_eq_true, not_or] at hname
          have hsame : hasSlash = ending.hasSlash := hslash
          rw [hsame]
          exact eq_false_of_ne_true hname.1.1
        split at h
        · next found hnode =>
          cases h
          exact nodeAt_of_locate (locate_of_entry hentry hnode hlink) hnode
        · cases h

/-- Where the folders of a path are not all there, the path leads nowhere, for the same cause. -/
theorem nodeAt_of_reach_error {fs : FileSystem} {p : Path} (hcheck : checkPath p = .ok ())
    {ending : Ending} (hending : ending? p = some ending) (hslash : ending.hasSlash = false)
    {cause : FileError}
    (h : fs.reach mostLinks (startOf p fs.workingFolder) ending.before = .error cause) :
    fs.nodeAt p = .error cause := by
  unfold nodeAt locate
  rw [hcheck, segments_of_ending? hending hslash, walk_append_cons, h]
  rfl

/-! ## §4. One name further down. -/

/-- A name pushed to the path of a folder is the name of an entry of that folder. -/
theorem locateEntry_push {fs : FileSystem} {around : Path} {folder place : Location} {name : Bytes}
    (hfolder : fs.locate around = .ok folder) (hhere : fs.HasFolder folder)
    (habsolute : around.isAbsolute = true) (hslash : slash ∉ name) (hname : isIdle name = false)
    (hup : name ≠ dotDot) (hcheck : checkPath (around.push name) = .ok ())
    (hplace : fs.placeIn folder name = .ok place) (noName : FileError) :
    fs.locateEntry (around.push name) noName = .ok ⟨place, false⟩ := by
  obtain ⟨front, hsegments, -, hfront⟩ := around.segments_push hslash
  have hne : name ≠ [] := by
    rintro rfl
    cases hname
  have hdot : name ≠ dot := by
    rintro rfl
    cases hname
  -- the names in front are those of the folder, whatever is idle between them
  obtain ⟨-, links, hwalk⟩ := (locate_eq_ok_iff fs around folder).1 hfolder
  have hreach := (reaches_iff_walk _ _ _ _ ⟨folder, links⟩).2 ⟨hwalk, hhere⟩
  refine (locateEntry_eq_ok_iff _ _ _ _).2 ⟨hcheck, ⟨front, name, false⟩, ⟨folder, links⟩, ?_,
    hdot, hup, ?_, hplace, rfl⟩
  · rw [ending?_of_segments hsegments hne, Path.endsInSlash_push around hne hslash]
  · have hstart : startOf (around.push name) fs.workingFolder
        = startOf around fs.workingFolder := by
      unfold startOf
      rw [Path.isAbsolute_push habsolute, habsolute]
    rw [hstart]
    exact reaches_congr hfront.symm hreach

end Keyring.FileSystem
