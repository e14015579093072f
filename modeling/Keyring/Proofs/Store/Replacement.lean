/-
  Keyring.Proofs.Store.Replacement
  ────────────────────────────────
  **WHICH DOCUMENT A SAVE REPLACES.**

  A request that changes the registry reads the document and later replaces
  one, and it finds both by the same path.  In between it may make folders.
  If one of these was missing, `load` took that for an empty registry, and
  the path may now lead to a document that was there all along.

  In a tree this takes a path with a segment `..` after a folder that is
  missing: where all that comes before each `..` is there (`Anchors`), what
  lies under a new folder is new.

  Main results:
    * `withFolders_of_anchors` — making folders leads an anchored path to
      something new, or it was nowhere else before;
    * `replaced_document_seen` — what was read, if a document is replaced.
-/
import Keyring.Proofs.Store.Saving

namespace Keyring

namespace FileSystem

/-! ## §1. Anchored paths. -/

/-- Whatever comes before a segment `..` of the path leads to a folder. -/
def Anchors (fs : FileSystem) (p : Path) : Prop :=
  ∀ front back, p.names = front ++ dotDot :: back →
    ∃ arrival, fs.Reaches mostLinks (startOf p fs.workingFolder) front arrival

/-- What has the same start and only the first names is anchored too. -/
theorem Anchors.of_dropLast {fs : FileSystem} {p up : Path} (h : fs.Anchors p)
    (hnames : up.names = p.names.dropLast) (habsolute : up.isAbsolute = p.isAbsolute) :
    fs.Anchors up := by
  intro front back hup
  have hstart : startOf up fs.workingFolder = startOf p fs.workingFolder := by
    unfold startOf
    rw [habsolute]
  rw [hstart]
  rcases List.eq_nil_or_concat p.names with hnil | ⟨init, last, hconcat⟩
  · rw [hnames, hnil] at hup
    exact absurd hup.symm (by simp)
  · rw [List.concat_eq_append] at hconcat
    rw [hnames, hconcat, List.dropLast_concat] at hup
    exact h front (back ++ [last]) (by rw [hconcat, hup]; simp)

/-- A path to a folder is anchored. -/
theorem anchors_of_reaches {fs : FileSystem} {p : Path} {arrival : Arrival}
    (h : fs.Reaches mostLinks (startOf p fs.workingFolder) p.names arrival) : fs.Anchors p := by
  intro front back hnames
  rw [hnames] at h
  obtain ⟨middle, hfront, -⟩ := (reaches_append_iff _ _ _ _ _ _).1 h
  exact ⟨middle, hfront⟩

/-! ## §2. New folders. -/

/-- The path leads to a folder that is new. -/
def LeadsToNew (fs after : FileSystem) (p : Path) : Prop :=
  ∃ arrival, after.Reaches mostLinks (startOf p fs.workingFolder) p.names arrival
    ∧ fs.node? arrival.place = none

/-- The path of a folder that has been made leads to it. -/
theorem leadsToNew_of_makeFolder {fs middle after : FileSystem} {p : Path}
    (hgrown : fs.Grown middle) (h : middle.makeFolder p = .ok after) : fs.LeadsToNew after p := by
  obtain ⟨place, links, -, hfree, -, hreach⟩ := reaches_of_makeFolder h
  rw [hgrown.workingFolder] at hreach
  refine ⟨⟨place, links⟩, hreach, ?_⟩
  -- where the folder was made nothing stood, and so nothing stood there at the beginning
  cases hold : fs.node? place with
  | none => rfl
  | some node =>
      rw [hgrown.keeps hold] at hfree
      cases hfree

/-- Nothing stands under a place where nothing stands. -/
theorem IsTree.node?_eq_none {fs : FileSystem} (h : fs.IsTree) {folder : Location}
    (hfolder : fs.node? folder = none) {name : Bytes} (hname : Path.isIdle name = false) :
    fs.node? (name :: folder) = none := by
  have hne : name ≠ [] := by
    rintro rfl
    cases hname
  cases hold : fs.node? (name :: folder) with
  | none => rfl
  | some node =>
      rw [h name folder node hne hold] at hfolder
      cases hfolder

/-- What stands where nothing stood before is a new folder, and no link leads on from it. -/
theorem place_of_step {fs middle : FileSystem} (hgrown : fs.Grown middle) {name : Bytes}
    {folder : Location} (hnothing : fs.node? (name :: folder) = none)
    (hname : Path.isIdle name = false) (hup : name ≠ dotDot) {links : Nat} {arrival : Arrival}
    (h : middle.Reaches links folder [name] arrival) : arrival.place = name :: folder := by
  cases h with
  | idle here idle later =>
      rw [hname] at idle
      cases idle
  | up here later => exact absurd rfl hup
  | down here _ _ within later =>
      obtain ⟨rfl, -, -⟩ := place_of_placeIn within
      cases later
      rfl
  -- a link would have stood there from the beginning
  | follow here _ _ within link later =>
      obtain ⟨rfl, -, -⟩ := place_of_placeIn within
      rcases hgrown.node (name :: folder) with hsame | ⟨-, hfolder⟩
      · rw [hsame, hnothing] at link
        cases link
      · rw [hfolder] at link
        cases link

/-- In a tree, what stands under a new folder is new. -/
theorem leadsToNew_of_parent {fs middle : FileSystem} {p up : Path} (htree : fs.IsTree)
    (hgrown : fs.Grown middle) (hanchors : fs.Anchors p) (hnames : up.names = p.names.dropLast)
    (habsolute : up.isAbsolute = p.isAbsolute) (hup : fs.LeadsToNew middle up)
    (h : middle.isFolder p = true) : fs.LeadsToNew middle p := by
  obtain ⟨⟨folder, links⟩, habove, hfresh⟩ := hup
  have hstart : startOf up fs.workingFolder = startOf p fs.workingFolder := by
    unfold startOf
    rw [habsolute]
  rw [hstart, hnames] at habove
  -- the walk is the one to the folder above, and one more name
  rcases List.eq_nil_or_concat p.names with hnil | ⟨init, name, hconcat⟩
  · rw [hnil, List.dropLast_nil] at habove
    exact ⟨⟨folder, links⟩, hnil ▸ habove, hfresh⟩
  rw [List.concat_eq_append] at hconcat
  rw [hconcat, List.dropLast_concat] at habove
  obtain ⟨-, arrival, harrival⟩ := (isFolder_iff middle p).1 h
  rw [hgrown.workingFolder] at harrival
  refine ⟨arrival, harrival, ?_⟩
  rw [hconcat, reaches_append_iff] at harrival
  obtain ⟨other, hother, hlast⟩ := harrival
  obtain rfl := habove.unique hother
  have hname : Path.isIdle name = false := by
    have hmem : name ∈ p.names := by simp [hconcat]
    simpa using (List.mem_filter.1 hmem).2
  by_cases hup : name = dotDot
  · -- what is before `..` was there, and so is not new
    subst hup
    obtain ⟨old, hold⟩ := hanchors init [] hconcat
    obtain rfl := habove.unique (hold.extend hgrown.extendsTo)
    rcases hold.hasFolder_arrival with hold | hold <;> (rw [hold] at hfresh; cases hfresh)
  -- any other name stands inside a new folder, where nothing has stood before
  · have hnothing := htree.node?_eq_none hfresh hname
    rw [place_of_step hgrown hnothing hname hup hlast]
    exact hnothing

/-- A folder is made after those above it: if these lead its path to something new, so does the
whole. -/
theorem leadsToNew_of_cons {fs after : FileSystem} {p : Path} {above : List Path}
    (h : fs.withFolders (p :: above) = (.ok (), after))
    (habove : ∀ middle, fs.withFolders above = (.ok (), middle) →
      middle = fs ∨ (middle.isFolder p = true → fs.LeadsToNew middle p)) :
    after = fs ∨ fs.LeadsToNew after p := by
  rw [withFolders_cons] at h
  -- made at once, made after those above, or found made by those above
  split at h
  · next made hmade =>
    cases h
    exact .inr (leadsToNew_of_makeFolder (.refl fs) hmade)
  · split at h
    · cases h
    · next middle hmiddle =>
      have hgrown := (grownAlong_withFolders above fs).grown
      rw [hmiddle] at hgrown
      split at h
      · next made hmade =>
        cases h
        exact .inr (leadsToNew_of_makeFolder hgrown hmade)
      · unfold present at h
        split at h
        · next hfolder =>
          cases h
          rcases habove _ hmiddle with hsame | hnew
          · exact .inl hsame
          · exact .inr (hnew hfolder)
        · cases h
  · exact .inl (congrArg Prod.snd h).symm

/-- **Making folders leads an anchored path to something new, or changes nothing.** -/
theorem withFolders_of_anchors {fs after : FileSystem} (htree : fs.IsTree) (steps : Nat) (p : Path)
    (hanchors : fs.Anchors p)
    (h : fs.withFolders (Path.ancestors.go steps p) = (.ok (), after)) :
    after = fs ∨ fs.LeadsToNew after p := by
  -- on the steps that `ancestors` takes: the folders above are made before the folder itself
  induction steps generalizing p after with
  | zero =>
      cases h
      exact .inl rfl
  | succ steps ih =>
      unfold Path.ancestors.go at h
      split at h
      · cases h
        exact .inl rfl
      split at h
      · exact leadsToNew_of_cons h fun middle hmiddle => by
          cases hmiddle
          exact .inl rfl
      · next up hparent =>
        obtain ⟨hnames, habsolute⟩ := Path.parent?_eq_some hparent
        refine leadsToNew_of_cons h fun middle hmiddle => ?_
        rcases ih up (hanchors.of_dropLast hnames habsolute) hmiddle with rfl | hup
        · exact .inl rfl
        · have hgrown := (grownAlong_withFolders (Path.ancestors.go steps up) fs).grown
          rw [hmiddle] at hgrown
          exact .inr (leadsToNew_of_parent htree hgrown hanchors hnames habsolute hup)

end FileSystem

open FileSystem

/-! ## §3. The folder of the document. -/

section

variable {s : Store} {fs : FileSystem}

/-- Where a document is found, its folder is there. -/
theorem isFolder_of_read {e : EntryPlace} (hcheck : checkPath s.folder = .ok ())
    (hentry : s.landing fs = .ok e) {content : Bytes} (h : fs.read s.path = .ok content) :
    fs.isFolder s.folder = true := by
  obtain ⟨last, -, hnames, -⟩ := Store.entry_cases hentry
  obtain ⟨node, hnode, -⟩ := bind_eq_ok h
  obtain ⟨place, hlocate, -⟩ := bind_eq_ok hnode
  obtain ⟨arrival, hreach⟩ := reaches_of_locate hlocate hnames
  refine (isFolder_iff fs s.folder).2 ⟨hcheck, arrival, ?_⟩
  rw [Store.startOf_folder (by simp [hnames])]
  exact hreach

/-- A document that stands where the path leads is read, if the folder is there. -/
theorem read_of_isFolder {place : Location} (hentry : s.landing fs = .ok ⟨place, false⟩)
    {content : Bytes} {mode : Nat} (hnode : fs.node? place = some (.file content mode))
    (h : fs.isFolder s.folder = true) : fs.read s.path = .ok content := by
  unfold Store.landing at hentry
  rw [Store.ready_of_isFolder h] at hentry
  exact read_of_entry hentry hnode

/-- In a tree, a document that is to be replaced was there, so its folder is not new: it was there
too, if the path is anchored. -/
theorem isFolder_iff_anchors (htree : fs.IsTree) (hcheck : checkPath s.folder = .ok ())
    (hmade : (fs.withFolders s.folder.ancestors).1 = .ok ()) {place : Location}
    (hentry : s.landing fs = .ok ⟨place, false⟩) {node : Node}
    (hnode : fs.node? place = some node) : fs.isFolder s.folder = true ↔ fs.Anchors s.path := by
  obtain ⟨last, above, hnames, hlast, hup, habove, rfl⟩ := Store.entry_cases hentry
  have hne : s.path.names ≠ [] := by simp [hnames]
  constructor
  · intro h front back hfront
    obtain ⟨-, arrival, hreach⟩ := (isFolder_iff fs s.folder).1 h
    rw [← Store.startOf_folder hne]
    rw [hnames] at hfront
    -- the last name is none of the `..`, so each of these is one of the folder's names
    rcases List.eq_nil_or_concat back with rfl | ⟨middle, final, rfl⟩
    · exact absurd (List.singleton_inj.1 (List.append_inj' hfront rfl).2) hup
    · have hsplit : s.folder.names ++ [last] = (front ++ dotDot :: middle) ++ [final] := by
        rw [hfront]
        simp
      exact anchors_of_reaches hreach front middle (List.append_inj' hsplit rfl).1
  · intro h
    have hwith : fs.withFolders s.folder.ancestors = (.ok (), s.ready fs) := Prod.ext hmade rfl
    have hanchors : fs.Anchors s.folder :=
      h.of_dropLast (s.folder_names hne).1 (s.folder_names hne).2
    rcases withFolders_of_anchors htree _ s.folder hanchors hwith with hsame | ⟨new, hreach, hnew⟩
    · have hstill := Store.isFolder_of_entry hcheck hentry
      rw [hsame] at hstill
      exact hstill
    · -- the place is under a folder that is new, and yet something stood there
      rw [← (s.grown_ready fs).workingFolder] at hreach
      obtain rfl := habove.unique hreach
      rw [htree last _ node hlast hnode] at hnew
      cases hnew

end

/-! ## §4. What is read and what is replaced. -/

/-- **If a change replaces a document, that document was read just if its folder was there; else
the registry was taken to be empty.**  In a tree, the folder was there just if whatever comes
before a segment `..` of the path was. -/
theorem replaced_document_seen {s : Store} {q : Request} {fs after : FileSystem} {answer : Answer}
    (hchange : q.isChange = true) (h : runOn (s.serve q) fs = (.ok answer, after)) :
    ∃ r changed place, (runOn s.load fs).1 = .ok r ∧ r.respond fs q = .ok (answer, changed)
      ∧ s.landing fs = .ok ⟨place, false⟩
      ∧ after.node? place = some (.file (Store.encode changed) ownerOnly)
      ∧ (∀ other node, other ≠ place → fs.node? other = some node → after.node? other = some node)
      ∧ ∀ content mode, fs.node? place = some (.file content mode) →
          (fs.read s.path = .ok content ↔ fs.isFolder s.folder = true)
          ∧ (fs.isFolder s.folder = false → fs.read s.path = .error .notFound ∧ r = .empty)
          ∧ (fs.IsTree → (fs.isFolder s.folder = true ↔ fs.Anchors s.path)) := by
  obtain ⟨r, changed, hload, hanswer, hsave⟩ := serve_change_eq_ok hchange h
  obtain ⟨place, hplace⟩ := save_eq_ok hsave
  refine ⟨r, changed, place, ?_, hanswer, hplace.entry, hplace.node?_place, ?_, ?_⟩
  · rw [load_run]
    exact hload
  · intro other node hne hnode
    rw [hplace.node?_other hne]
    exact (s.grown_ready fs).keeps hnode
  · intro content mode hnode
    refine ⟨⟨isFolder_of_read hplace.folder hplace.entry, read_of_isFolder hplace.entry hnode⟩,
      fun hmissing => ?_, fun htree =>
      isFolder_iff_anchors htree hplace.folder hplace.made hplace.entry hnode⟩
    unfold Store.loaded at hload
    -- something was loaded, and a document it was not
    cases hread : fs.read s.path with
    | ok found =>
        rw [isFolder_of_read hplace.folder hplace.entry hread] at hmissing
        cases hmissing
    | error cause =>
        rw [hread] at hload
        cases cause <;> cases hload
        exact ⟨rfl, rfl⟩

/-- A path through a folder `new` that is not there, and back up from it. -/
def detourStore : Store := ⟨.ofString "new/../c/k"⟩

/-- A document of a key that is not seen on that path. -/
def hidden : FileSystem where
  nodes := [([[0x63]], .folder),
    ([[0x6B], [0x63]], .file (Store.encode ⟨none, [⟨"old", .keyPair ⟨"k", "c"⟩⟩]⟩) 0o644)]
  workingFolder := []

theorem hidden_save : (runOn (detourStore.save onePluginKey) hidden).1 = .ok () := by
  decide +kernel

/-- **A document that was there is replaced by one made from the empty registry.** -/
theorem hidden_document_replaced :
    (runOn (detourStore.serve askPluginKey) hidden).1 = .ok (.registry onePluginKey)
      ∧ hidden.read (.ofString "c/k") = .ok (Store.encode ⟨none, [⟨"old", .keyPair ⟨"k", "c"⟩⟩]⟩)
      ∧ hidden.read detourStore.path = .error .notFound
      ∧ (runOn (detourStore.serve askPluginKey) hidden).2.node? [[0x6B], [0x63]]
        = some (.file (Store.encode onePluginKey) ownerOnly) := by
  have hserve : (runOn (detourStore.serve askPluginKey) hidden).1
      = .ok (.registry onePluginKey) := by
    have hload : detourStore.loaded hidden = .ok .empty := rfl
    rw [serve_change hload rfl (respond_askPluginKey hidden)]
    unfold Store.saving
    rw [hidden_save]
    rfl
  obtain ⟨r, changed, place, hload, hanswer, hentry, hnew, -, hold⟩ :=
    replaced_document_seen rfl (Prod.ext hserve rfl)
  -- the detour leads to the place of the old document once its folder is made
  obtain rfl : place = [[0x6B], [0x63]] := by
    rw [show detourStore.landing hidden = .ok ⟨[[0x6B], [0x63]], false⟩ by decide +kernel] at hentry
    cases hentry
    rfl
  obtain ⟨hread, rfl⟩ := (hold _ _ rfl).2.1 (by decide +kernel)
  cases hanswer
  exact ⟨hserve, rfl, hread, hnew⟩

end Keyring
