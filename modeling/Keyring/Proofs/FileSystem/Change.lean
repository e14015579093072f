/-
  Keyring.Proofs.FileSystem.Change
  ────────────────────────────────
  **WALKS IN A TREE THAT CHANGES.**

  A walk depends on folders and links alone.  So it is the same in any tree
  in which these still stand (`ExtendsTo`): new folders, and files that
  come and go, do not turn it elsewhere.  A file that takes the place of
  something else may stand in its way; then there is an error, and not
  another end.

  Main results:
    * `Reaches.extend`, `locateEntry_extend` — a walk that arrives, arrives
      there in a larger tree too;
    * `locateEntry_erase_or_blocked` — a file put somewhere either is not on
      the way, or blocks it.
-/
import Keyring.Proofs.FileSystem.Entries

namespace Keyring.FileSystem

open Keyring.Path (isIdle namesAmong)

/-! ## §1. Larger trees. -/

/-- No walk goes through here, or turns here. -/
def Node.isDeadEnd : Node → Bool
  | .file _ _ | .device => true
  | .folder | .removed | .link _ => false

/-- All folders and links of a tree stand in another one. -/
structure ExtendsTo (fs after : FileSystem) : Prop where
  workingFolder : after.workingFolder = fs.workingFolder
  node : ∀ place node, fs.node? place = some node → Node.isDeadEnd node = false →
    after.node? place = some node

namespace ExtendsTo

variable {fs after : FileSystem}

theorem hasFolder (h : fs.ExtendsTo after) {place : Location} (here : fs.HasFolder place) :
    after.HasFolder place := by
  rcases here with here | here
  · exact .inl (h.node place _ here rfl)
  · exact .inr (h.node place _ here rfl)

theorem node?_eq (h : fs.ExtendsTo after) {place : Location} (here : fs.HasFolder place) :
    after.node? place = fs.node? place := by
  rcases here with here | here <;> rw [here, h.node place _ here rfl]

/-- In a folder the places of names are the same. -/
theorem placeIn_eq (h : fs.ExtendsTo after) {place : Location} (here : fs.HasFolder place)
    (name : Bytes) : after.placeIn place name = fs.placeIn place name := by
  unfold placeIn
  rw [h.node?_eq here]

end ExtendsTo

/-- **A walk that arrives, arrives there in a larger tree too.** -/
theorem Reaches.extend {fs after : FileSystem} (h : fs.ExtendsTo after) {links : Nat}
    {place : Location} {segments : List Bytes} {arrival : Arrival}
    (hreach : fs.Reaches links place segments arrival) :
    after.Reaches links place segments arrival := by
  induction hreach with
  | done here => exact .done (h.hasFolder here)
  | idle here idle later ih => exact .idle (h.hasFolder here) idle ih
  | up here later ih => exact .up (h.hasFolder here) ih
  | down here name notUp within later ih =>
      exact .down (h.hasFolder here) name notUp ((h.placeIn_eq here _).trans within) ih
  | follow here name notUp within link later ih =>
      exact .follow (h.hasFolder here) name notUp ((h.placeIn_eq here _).trans within)
        (h.node _ _ link rfl) ih

theorem locateEntry_extend {fs after : FileSystem} (h : fs.ExtendsTo after) {p : Path}
    {noName : FileError} {e : EntryPlace} (he : fs.locateEntry p noName = .ok e) :
    after.locateEntry p noName = .ok e := by
  rw [locateEntry_eq_ok_iff] at he ⊢
  obtain ⟨hcheck, ending, arrival, hending, hdot, hup, hreach, hplace, hslash⟩ := he
  refine ⟨hcheck, ending, arrival, hending, hdot, hup, ?_, ?_, hslash⟩
  · rw [h.workingFolder]
    exact hreach.extend h
  · rw [h.placeIn_eq hreach.hasFolder_arrival]
    exact hplace

/-! ## §2. Files that come and go. -/

/-- Something new where nothing stood, or only a dead end, makes a tree larger. -/
theorem extendsTo_put {fs : FileSystem} {place : Location} (hplace : place ≠ [])
    (hfree : ∀ node, fs.node? place = some node → Node.isDeadEnd node = true) (node : Node) :
    fs.ExtendsTo (fs.put place node) where
  workingFolder := rfl
  node := by
    intro other old hold hway
    rw [node?_put fs node hplace]
    split
    · next heq =>
      rw [heq] at hold
      rw [hfree old hold] at hway
      cases hway
    · exact hold

/-- Without a dead end a tree is as large as with it. -/
theorem put_extendsTo {fs : FileSystem} {place : Location} (hplace : place ≠ []) {node : Node}
    (hdead : Node.isDeadEnd node = true) : (fs.put place node).ExtendsTo fs where
  workingFolder := rfl
  node := by
    intro other old hold hway
    rw [node?_put fs node hplace] at hold
    split at hold
    · cases hold
      rw [hdead] at hway
      cases hway
    · exact hold

theorem erase_extendsTo (fs : FileSystem) {place : Location} (hplace : place ≠ []) :
    (fs.erase place).ExtendsTo fs where
  workingFolder := rfl
  node := by
    intro other old hold _
    rw [node?_erase fs hplace] at hold
    split at hold
    · cases hold
    · exact hold

/-! ## §3. A file in the way. -/

/-- The tree is the same but for one place, where there is now a dead end. -/
structure BlockedAt (fs after : FileSystem) (place : Location) : Prop where
  workingFolder : after.workingFolder = fs.workingFolder
  elsewhere : ∀ other, other ≠ place → after.node? other = fs.node? other
  here : ∃ node, after.node? place = some node ∧ Node.isDeadEnd node = true

namespace BlockedAt

variable {fs after : FileSystem} {place : Location}

theorem requireFolder (h : fs.BlockedAt after place) :
    after.requireFolder place = .error .notFolder := by
  obtain ⟨node, hnode, hdead⟩ := h.here
  unfold FileSystem.requireFolder
  rw [hnode]
  cases node <;> first | rfl | cases hdead

/-- Whoever comes to the place is stopped there. -/
theorem reach_here (h : fs.BlockedAt after place) (links : Nat) (segments : List Bytes) :
    after.reach links place segments = .error .notFolder :=
  reach_of_requireFolder_error h.requireFolder links segments

theorem reachFrom_here (h : fs.BlockedAt after place) (links : Nat) (origin : Location)
    (segments : List Bytes) : after.reachFrom links origin place segments = .error .notFolder := by
  obtain ⟨node, hnode, hdead⟩ := h.here
  have hwalk : after.walkFrom links origin place segments = after.walk links place segments := by
    unfold walkFrom
    rw [hnode]
    cases node with
    | link target => cases hdead
    | _ => rfl
  unfold reachFrom
  rw [hwalk]
  exact h.reach_here links segments

theorem hasFolder (h : fs.BlockedAt after place) {other : Location} (hne : other ≠ place)
    (there : fs.HasFolder other) : after.HasFolder other := by
  unfold HasFolder
  rw [h.elsewhere other hne]
  exact there

theorem placeIn_eq (h : fs.BlockedAt after place) {other : Location} (hne : other ≠ place)
    (name : Bytes) : after.placeIn other name = fs.placeIn other name := by
  unfold placeIn
  rw [h.elsewhere other hne]

end BlockedAt

theorem hasFolder_erase {fs : FileSystem} {place other : Location} (hplace : place ≠ [])
    (hne : other ≠ place) (there : fs.HasFolder other) : (fs.erase place).HasFolder other := by
  unfold HasFolder
  rw [node?_erase fs hplace, if_neg hne]
  exact there

theorem placeIn_erase {fs : FileSystem} {place other : Location} (hplace : place ≠ [])
    (hne : other ≠ place) (name : Bytes) :
    (fs.erase place).placeIn other name = fs.placeIn other name := by
  unfold placeIn
  rw [node?_erase fs hplace, if_neg hne]

/-- **A dead end put somewhere either is not on the way, or blocks it.** -/
theorem Reaches.erase_or_blocked {fs after : FileSystem} {blocked : Location}
    (hne : blocked ≠ []) (h : fs.BlockedAt after blocked) {links : Nat} {place : Location}
    {segments : List Bytes} {arrival : Arrival}
    (hreach : fs.Reaches links place segments arrival) :
    (fs.erase blocked).Reaches links place segments arrival
      ∨ after.reach links place segments = .error .notFolder := by
  -- either one stands at the blocked place, or the next step is the same in all three trees
  induction hreach with
  | @done links place here =>
      by_cases hplace : place = blocked
      · exact .inr (hplace ▸ h.reach_here links [])
      · exact .inl (.done (hasFolder_erase hne hplace here))
  | @idle links place segment rest arrival here idle later ih =>
      by_cases hplace : place = blocked
      · exact .inr (hplace ▸ h.reach_here links _)
      rcases ih with ih | ih
      · exact .inl (.idle (hasFolder_erase hne hplace here) idle ih)
      · exact .inr ((reach_idle after links place idle rest).trans ih)
  | @up links place rest arrival here later ih =>
      by_cases hplace : place = blocked
      · exact .inr (hplace ▸ h.reach_here links _)
      rcases ih with ih | ih
      · exact .inl (.up (hasFolder_erase hne hplace here) ih)
      · exact .inr ((reach_up (h.hasFolder hplace here) links rest).trans ih)
  | @down links place inner segment rest arrival here name notUp within later ih =>
      by_cases hplace : place = blocked
      · exact .inr (hplace ▸ h.reach_here links _)
      have hwithin := (h.placeIn_eq hplace segment).trans within
      have hstep := reach_within (h.hasFolder hplace here) name notUp hwithin links rest
      -- the step may lead to the blocked place, which is then no folder but can be stepped on
      by_cases hinner : inner = blocked
      · exact .inr (hstep.trans (hinner ▸ h.reachFrom_here links place rest))
      rcases ih with ih | ih
      · exact .inl (.down (hasFolder_erase hne hplace here) name notUp
          ((placeIn_erase hne hplace segment).trans within) ih)
      · rw [reachFrom_of_hasFolder (h.hasFolder hinner later.hasFolder)] at hstep
        exact .inr (hstep.trans ih)
  | @follow links place inner segment target rest arrival here name notUp within link later ih =>
      by_cases hplace : place = blocked
      · exact .inr (hplace ▸ h.reach_here _ _)
      have hwithin := (h.placeIn_eq hplace segment).trans within
      have hstep := reach_within (h.hasFolder hplace here) name notUp hwithin (links + 1) rest
      -- the link itself may have been what stood there
      by_cases hinner : inner = blocked
      · exact .inr (hstep.trans (hinner ▸ h.reachFrom_here _ place rest))
      rcases ih with ih | ih
      · have hlink : (fs.erase blocked).node? inner = some (.link target) := by
          rw [node?_erase fs hne, if_neg hinner, link]
        exact .inl (.follow (hasFolder_erase hne hplace here) name notUp
          ((placeIn_erase hne hplace segment).trans within) hlink ih)
      · rw [reachFrom_of_link ((h.elsewhere inner hinner).trans link)] at hstep
        exact .inr (hstep.trans ih)

/-- Either the entry of a path is found without the place that is blocked, or the path leads
nowhere any more. -/
theorem locateEntry_erase_or_blocked {fs after : FileSystem} {blocked : Location}
    (hne : blocked ≠ []) (h : fs.BlockedAt after blocked) {p : Path} {noName : FileError}
    {place : Location} (he : fs.locateEntry p noName = .ok ⟨place, false⟩) :
    (fs.erase blocked).locateEntry p noName = .ok ⟨place, false⟩
      ∨ after.nodeAt p = .error .notFolder := by
  obtain ⟨hcheck, ending, arrival, hending, hdot, hup, hreach, hplace, hslash⟩ :=
    (locateEntry_eq_ok_iff _ _ _ _).1 he
  -- the walk to the folder either keeps clear of the place or is stopped there
  rcases hreach.erase_or_blocked hne h with hwithout | hblocked
  · left
    refine (locateEntry_eq_ok_iff _ _ _ _).2
      ⟨hcheck, ending, arrival, hending, hdot, hup, hwithout, ?_, hslash⟩
    rw [← (erase_extendsTo fs hne).placeIn_eq hwithout.hasFolder_arrival]
    exact hplace
  · right
    rw [← h.workingFolder] at hblocked
    exact nodeAt_of_reach_error hcheck hending hslash.symm hblocked

end Keyring.FileSystem
