/-
  Keyring.Proofs.Store.Transparency
  ────────────────────────────────
  **A STORED REGISTRY AND ONE IN MEMORY.**

  A sequence of requests is put to a store and, at the same time, to a
  registry in memory that begins as the stored one.  `Store.trace` and
  `Registry.trace` note for each request the answer and the registry there
  is after it: for the store, what `load` then gives.

  The two agree as long as the path of the document does not pass through
  the document's own place (`Store.IsClear`).  It may do so before the first
  save: a missing folder on the way is made, and a path that led nowhere
  then goes through a link that the document replaces.

  Main results:
    * `loaded_after_save`       — on a clear path a save is read back, and
      the path stays clear;
    * `loaded_after_blind_save` — on any other path nothing is read after a
      save, but for an error;
    * `trace_eq_iff`            — the traces agree just on clear paths, or where
      nothing is saved.
-/
import Keyring.Proofs.Store.Saving
import Keyring.Proofs.Store.Soundness

namespace Keyring

open FileSystem

/-! ## §1. Paths that are clear. -/

/-- The path of the document does not pass through the document's own place: it leads there also
if nothing stands there. -/
def Store.IsClear (s : Store) (fs : FileSystem) : Prop :=
  ∀ e, s.landing fs = .ok e → ((s.ready fs).erase e.place).locateEntry s.path .busy = .ok e

/-- What is loaded is the document that stands where the path leads. -/
theorem loaded_of_entry {s : Store} {fs : FileSystem} {place : Location} {content : Bytes}
    {mode : Nat} (hentry : fs.locateEntry s.path .busy = .ok ⟨place, false⟩)
    (hnode : fs.node? place = some (.file content mode)) : s.loaded fs = s.decode content := by
  unfold Store.loaded
  rw [read_of_entry hentry hnode]

/-! ## §2. One save. -/

/-- On a clear path the place a save has replaced is where the path still leads, with the document
there and without it. -/
theorem entry_after_save {s : Store} {r : Registry} {fs after : FileSystem} {place : Location}
    (hclear : s.IsClear fs) (hplace : s.Replaces r fs after place) :
    (after.erase place).locateEntry s.path .busy = .ok ⟨place, false⟩
      ∧ after.locateEntry s.path .busy = .ok ⟨place, false⟩ := by
  have hne := hplace.ne_nil
  -- the walk that avoids the place is the same before the save and after it
  have hagree : ((s.ready fs).erase place).ExtendsTo (after.erase place) := by
    refine ⟨hplace.workingFolder, fun other node hother _ => ?_⟩
    rw [node?_erase _ hne] at hother ⊢
    split at hother
    · cases hother
    · next hother' => rw [if_neg hother', hplace.node?_other hother', hother]
  have hwithout := locateEntry_extend hagree (hclear _ hplace.entry)
  exact ⟨hwithout, locateEntry_extend (erase_extendsTo after hne) hwithout⟩

/-- On any other path the document a save has left stands in its own way. -/
theorem nodeAt_after_blind_save {s : Store} {r : Registry} {fs after : FileSystem}
    {place : Location} (hclear : ¬ s.IsClear fs) (hplace : s.Replaces r fs after place) :
    after.nodeAt s.path = .error .notFolder := by
  have hblocked : (s.ready fs).BlockedAt after place :=
    ⟨hplace.workingFolder, fun other => hplace.node?_other, _, hplace.node?_place, rfl⟩
  -- either the path never came through the place of the document, or it does not lead on now
  rcases locateEntry_erase_or_blocked hplace.ne_nil hblocked hplace.entry with hwithout | hlost
  · refine absurd (fun e he => ?_) hclear
    rw [hplace.entry] at he
    cases he
    exact hwithout
  · exact hlost

/-- **On a clear path a saved registry is read back, and the path stays clear.** -/
theorem loaded_after_save {s : Store} {r : Registry} {fs after : FileSystem} (hclear : s.IsClear fs)
    (h : r.Sound) (hsave : runOn (s.save r) fs = (.ok (), after)) :
    s.loaded after = .ok r ∧ s.IsClear after := by
  obtain ⟨place, hplace⟩ := save_eq_ok hsave
  obtain ⟨hwithout, hafter⟩ := entry_after_save hclear hplace
  refine ⟨(loaded_of_entry hafter hplace.node?_place).trans (decode_encode s h), ?_⟩
  -- the next save will find the folders made and lead to the same place
  have hstill : s.ready after = after :=
    Store.ready_of_isFolder (Store.isFolder_of_entry hplace.folder hafter)
  intro e he
  unfold Store.landing at he
  rw [hstill] at he ⊢
  rw [hafter] at he
  cases he
  exact hwithout

/-- **On any other path nothing can be read after a save: the document stands in its own way.** -/
theorem loaded_after_blind_save {s : Store} {r : Registry} {fs after : FileSystem}
    (hclear : ¬ s.IsClear fs) (hsave : runOn (s.save r) fs = (.ok (), after)) :
    s.loaded after = .error (.io .notFolder) := by
  obtain ⟨place, hplace⟩ := save_eq_ok hsave
  have hread : after.read s.path = .error .notFolder := by
    unfold FileSystem.read
    rw [nodeAt_after_blind_save hclear hplace]
    rfl
  unfold Store.loaded
  rw [hread]

/-- A saved registry is read back just on a clear path. -/
theorem loaded_after_save_iff {s : Store} {r : Registry} {fs after : FileSystem} (h : r.Sound)
    (hsave : runOn (s.save r) fs = (.ok (), after)) : s.loaded after = .ok r ↔ s.IsClear fs := by
  constructor
  · intro hloaded
    by_contra hclear
    rw [loaded_after_blind_save hclear hsave] at hloaded
    cases hloaded
  · exact fun hclear => (loaded_after_save hclear h hsave).1

/-! ## §3. Sequences of requests. -/

/-- The answer to a request, and the registry there is after it. -/
abbrev Note := Except KeyError Answer × Except KeyError Registry

namespace Store

/-- The file system after a request. -/
def after (s : Store) (fs : FileSystem) (q : Request) : FileSystem := (runOn (s.serve q) fs).2

/-- What a store answers to one request after another, and what is loaded after each. -/
def trace (s : Store) : FileSystem → List Request → List Note
  | _, [] => []
  | fs, q :: rest =>
    ((runOn (s.serve q) fs).1, (runOn s.load (s.after fs q)).1) :: s.trace (s.after fs q) rest

/-- The requests, each with the file system there is when the store is asked. -/
def seen (s : Store) : FileSystem → List Request → List (FileSystem × Request)
  | _, [] => []
  | fs, q :: rest => (fs, q) :: s.seen (s.after fs q) rest

/-- No save on the way fails on account of the disk. -/
def SavesSucceed (s : Store) : FileSystem → List Request → Prop
  | _, [] => True
  | fs, q :: rest =>
    (q.isChange = true → ∀ r answer changed, (runOn s.load fs).1 = .ok r →
      r.respond fs q = .ok (answer, changed) →
        ∀ cause, (runOn (s.save changed) fs).1 ≠ .error (.io cause))
    ∧ s.SavesSucceed (s.after fs q) rest

/-- No request on the way changes the registry. -/
def KeepsStill (s : Store) : FileSystem → List Request → Prop
  | _, [] => True
  | fs, q :: rest =>
    (q.isChange = true → ∀ answer, (runOn (s.serve q) fs).1 ≠ .ok answer)
    ∧ s.KeepsStill (s.after fs q) rest

end Store

namespace Registry

/-- The registry after a request, which is the old one if the request fails. -/
def afterRequest (r : Registry) (fs : FileSystem) (q : Request) : Registry :=
  match r.respond fs q with
  | .ok (_, changed) => changed
  | .error _ => r

/-- What a registry in memory answers to one request after another, and the registry after each.
Of each file system only the key files are looked at. -/
def trace : Registry → List (FileSystem × Request) → List Note
  | _, [] => []
  | r, (fs, q) :: rest =>
    ((r.respond fs q).map (·.1), .ok (r.afterRequest fs q)) :: (r.afterRequest fs q).trace rest

/-- A request that only looks leaves the registry as it is. -/
theorem eq_of_respond_look {r changed : Registry} {fs : FileSystem} {q : Request} {answer : Answer}
    (hlook : q.isChange = false) (h : r.respond fs q = .ok (answer, changed)) : changed = r := by
  cases q with
  | listKeys =>
      cases h
      rfl
  | resolveKey name =>
      obtain ⟨found, -, h⟩ := bind_eq_ok h
      cases h
      rfl
  | _ => cases hlook

end Registry

/-! ## §4. One request. -/

/-- A request on a loaded registry does what it does in memory, and either leaves everything as it
is or saves the changed registry. -/
theorem serve_cases {s : Store} {fs : FileSystem} {r : Registry} (h : s.loaded fs = .ok r)
    (q : Request) :
    (runOn (s.serve q) fs = ((r.respond fs q).map (·.1), fs) ∧ r.afterRequest fs q = r
      ∧ (q.isChange = true → ∀ answer, (r.respond fs q).map (·.1) ≠ .ok answer))
    ∨ ∃ answer, r.respond fs q = .ok (answer, r.afterRequest fs q) ∧ q.isChange = true
        ∧ runOn (s.serve q) fs = s.saving (r.afterRequest fs q) answer fs := by
  rw [Registry.afterRequest]
  cases hanswer : r.respond fs q with
  | error e =>
      refine .inl ⟨?_, rfl, fun _ answer hok => ?_⟩
      · rw [serve_of_loaded h, hanswer]
        rfl
      · cases hok
  | ok result =>
      obtain ⟨answer, changed⟩ := result
      -- an answer to a change is saved, and any other leaves the registry alone
      cases hchange : q.isChange with
      | true => exact .inr ⟨answer, rfl, rfl, serve_change h hchange hanswer⟩
      | false =>
          refine .inl ⟨?_, Registry.eq_of_respond_look hchange hanswer, fun hyes => ?_⟩
          · rw [serve_of_loaded h, hanswer]
            exact if_neg (by simp [hchange])
          · cases hyes

/-- A save that the disk does not fail succeeds, if the registry is sound. -/
theorem saving_of_sound {s : Store} {r : Registry} {fs : FileSystem} (h : r.Sound) (answer : α)
    (hdisk : ∀ cause, (runOn (s.save r) fs).1 ≠ .error (.io cause)) :
    ∃ after, runOn (s.save r) fs = (.ok (), after)
      ∧ s.saving r answer fs = (.ok answer, after) := by
  unfold Store.saving
  rcases hsave : runOn (s.save r) fs with ⟨e | _, after⟩
  · obtain ⟨cause, rfl⟩ := save_error h.toKeepsRules (congrArg Prod.fst hsave)
    rw [hsave] at hdisk
    exact absurd rfl (hdisk cause)
  · exact ⟨after, rfl, rfl⟩

/-! ## §5. The traces. -/

/-- The traces agree on a request if the store gives the same answer and then holds the same
registry. -/
theorem trace_cons_eq_iff (s : Store) (fs : FileSystem) (r : Registry) (q : Request)
    (rest : List Request) :
    s.trace fs (q :: rest) = r.trace (s.seen fs (q :: rest))
      ↔ ((runOn (s.serve q) fs).1 = (r.respond fs q).map (·.1)
          ∧ s.loaded (s.after fs q) = .ok (r.afterRequest fs q))
        ∧ s.trace (s.after fs q) rest
          = (r.afterRequest fs q).trace (s.seen (s.after fs q) rest) := by
  rw [Store.trace, Store.seen, Registry.trace, List.cons.injEq, Prod.mk.injEq, load_run]

/-- **The traces agree just on clear paths, or where nothing is saved.** -/
theorem trace_eq_iff {s : Store} {fs : FileSystem} {r : Registry}
    (hload : (runOn s.load fs).1 = .ok r) {requests : List Request}
    (hsaves : s.SavesSucceed fs requests) :
    s.trace fs requests = r.trace (s.seen fs requests)
      ↔ s.IsClear fs ∨ s.KeepsStill fs requests := by
  induction requests generalizing fs r with
  | nil => exact ⟨fun _ => .inr trivial, fun _ => rfl⟩
  | cons q rest ih =>
      obtain ⟨hsave, hrest⟩ := hsaves
      have h : s.loaded fs = .ok r := by
        rw [load_run] at hload
        exact hload
      rw [trace_cons_eq_iff, Store.KeepsStill]
      rcases serve_cases h q with ⟨hserve, hnext, hfails⟩ | ⟨answer, hanswer, hchange, hserve⟩
      · -- nothing is saved: the tree and the registry are those the rest begins with
        have hafter : s.after fs q = fs := congrArg Prod.snd hserve
        rw [hafter] at hrest
        rw [hafter, hnext, hserve, ih hload hrest]
        constructor
        · rintro ⟨-, hclear | hstill⟩
          · exact .inl hclear
          · exact .inr ⟨hfails, hstill⟩
        · rintro (hclear | ⟨-, hstill⟩)
          · exact ⟨⟨rfl, h⟩, .inl hclear⟩
          · exact ⟨⟨rfl, h⟩, .inr hstill⟩
      · -- the changed registry is saved: on a clear path the invariant is restored
        have hsound : (r.afterRequest fs q).Sound := (sound_of_loaded h).respond hanswer
        obtain ⟨after, hsaved, hsaving⟩ :=
          saving_of_sound hsound answer (hsave hchange r answer _ hload hanswer)
        rw [hsaving] at hserve
        have hafter : s.after fs q = after := congrArg Prod.snd hserve
        rw [hafter] at hrest
        rw [hafter, hserve]
        by_cases hclear : s.IsClear fs
        · obtain ⟨hloaded, hclearAfter⟩ := loaded_after_save hclear hsound hsaved
          refine ⟨fun _ => .inl hclear, fun _ => ⟨⟨?_, hloaded⟩, ?_⟩⟩
          · rw [hanswer]
            rfl
          · have hload : (runOn s.load after).1 = .ok (r.afterRequest fs q) := by
              rw [load_run]
              exact hloaded
            exact (ih hload hrest).2 (.inl hclearAfter)
        · -- on any other path the first save ends the agreement
          have hlost := loaded_after_blind_save hclear hsaved
          constructor
          · rintro ⟨⟨-, hloaded⟩, -⟩
            rw [hlost] at hloaded
            cases hloaded
          · rintro (hyes | ⟨hstill, -⟩)
            · exact absurd hyes hclear
            · exact absurd rfl (hstill hchange answer)

/-- A path that leads nowhere until its first folder is made, and then passes through the link in
the place of the document. -/
def tangledStore : Store := ⟨.ofString "new/../l/../l"⟩

/-- A folder `d`, and a link `l` to it. -/
def tangled : FileSystem where
  nodes := [([[0x64]], .folder), ([[0x6C]], .link ⟨[0x64]⟩)]
  workingFolder := []

/-- Without the link the path does not lead there. -/
theorem tangled_not_clear : ¬ tangledStore.IsClear tangled := fun hclear =>
  absurd (hclear ⟨[[0x6C]], false⟩ (by decide +kernel)) (by decide +kernel)

theorem tangled_load : tangledStore.loaded tangled = .ok .empty := rfl

theorem tangled_save : (runOn (tangledStore.save onePluginKey) tangled).1 = .ok () := by
  decide +kernel

theorem tangled_savesSucceed : tangledStore.SavesSucceed tangled [askPluginKey] := by
  refine ⟨fun _ r answer changed hload hanswer cause => ?_, trivial⟩
  rw [load_run, tangled_load] at hload
  cases hload
  cases hanswer
  show (runOn (tangledStore.save onePluginKey) tangled).1 ≠ _
  rw [tangled_save]
  simp

/-- **The traces part where the document comes to stand in its own way.** -/
theorem tangled_trace_ne :
    (runOn tangledStore.load tangled).1 = .ok .empty
      ∧ tangledStore.SavesSucceed tangled [askPluginKey]
      ∧ tangledStore.trace tangled [askPluginKey]
        ≠ Registry.empty.trace (tangledStore.seen tangled [askPluginKey]) := by
  have hload : (runOn tangledStore.load tangled).1 = .ok .empty := by rw [load_run, tangled_load]
  refine ⟨hload, tangled_savesSucceed, fun heq => ?_⟩
  rcases (trace_eq_iff hload tangled_savesSucceed).1 heq with hclear | hstill
  · exact tangled_not_clear hclear
  · refine hstill.1 rfl (.registry onePluginKey) ?_
    rw [serve_change tangled_load rfl (respond_askPluginKey tangled)]
    unfold Store.saving
    rw [tangled_save]
    rfl

end Keyring
