/-
  Keyring.Proofs.Store.Clearance
  ────────────────────────────────
  **A DOCUMENT THAT IS READ IS NOT IN ITS OWN WAY.**

  A path passes through the place of its document only if a folder stands
  there, or a link to one.  In the end it would lead to that folder then,
  and there would be no document to be read.  More links can be followed on
  the way than in the end, where some have been used up already; but a walk
  that arrives, arrives in the same place with more links left.

  So a path is clear wherever a document was found on it, and what is saved
  there is what is loaded next.

  Main results:
    * `Reaches.erase_or_follows` — a walk does without a place in which no
      folder is, or goes on through a link there;
    * `isClear_of_read` — where a document is read, the path is clear;
    * `isClear_of_loaded` — and so it is where entries were loaded.
-/
import Keyring.Proofs.Store.Replacement
import Keyring.Proofs.Store.Transparency

namespace Keyring

namespace FileSystem

open Keyring.Path (isIdle)

/-! ## §1. Links left. -/

/-- A walk that arrives, arrives in the same place with more links left.  The induction is on the
links, and then on the segments, as the walk itself goes. -/
theorem walk_more {fs : FileSystem} (more : Nat) {arrival : Arrival} :
    ∀ (links : Nat) (segments : List Bytes) (place : Location),
      fs.walk links place segments = .ok arrival →
      fs.walk (links + more) place segments = .ok ⟨arrival.place, arrival.linksLeft + more⟩ := by
  intro links
  induction links using Nat.strongRecOn with
  | ind links ihlinks =>
      intro segments
      induction segments with
      | nil =>
          intro place h
          rw [walk_nil] at h ⊢
          cases h
          rfl
      | cons segment rest ih =>
          intro place h
          rw [walk_cons] at h ⊢
          obtain ⟨_, hhere, h⟩ := bind_eq_ok h
          rw [hhere]
          show (if isIdle segment = true then _ else if segment = dotDot then _ else _) = _
          split at h
          · next idle => rw [if_pos idle]; exact ih place h
          next name =>
          rw [if_neg name]
          split at h
          · next up => rw [if_pos up]; exact ih _ h
          next notUp =>
          obtain ⟨inner, within, h⟩ := bind_eq_ok h
          rw [if_neg notUp, within]
          show fs.walkFrom (links + more) place inner rest = _
          unfold walkFrom at h ⊢
          split at h
          · cases h
          · next target link =>
            cases links with
            | zero => cases h
            | succ left =>
                rw [Nat.succ_add]
                exact ihlinks left (by omega) _ _ h
          · exact ih _ h

/-- No link is given back. -/
theorem Reaches.linksLeft_le {fs : FileSystem} {links : Nat} {place : Location}
    {segments : List Bytes} {arrival : Arrival} (h : fs.Reaches links place segments arrival) :
    arrival.linksLeft ≤ links := by
  induction h with
  | done here => exact Nat.le_refl _
  | follow here name notUp within link later ih => exact Nat.le_succ_of_le ih
  | _ => assumption

/-! ## §2. Walks through a place. -/

/-- The walk goes on through a link at this place, and is in a folder behind it. -/
def Follows (fs : FileSystem) (place : Location) (arrival : Arrival) : Prop :=
  ∃ target left middle, fs.node? place = some (.link target)
    ∧ fs.Reaches left (startOf target place.tail) target.segments middle
    ∧ arrival.linksLeft ≤ left

/-- **A walk to a folder does without a place in which no folder is, or goes on through a link
there.** -/
theorem Reaches.erase_or_follows {fs : FileSystem} {passed : Location} (hne : passed ≠ [])
    (hnot : ¬ fs.HasFolder passed) {links : Nat} {place : Location} {segments : List Bytes}
    {arrival : Arrival} (hreach : fs.Reaches links place segments arrival) :
    (fs.erase passed).Reaches links place segments arrival ∨ fs.Follows passed arrival := by
  have hother : ∀ {other}, fs.HasFolder other → (fs.erase passed).HasFolder other := by
    intro other there
    exact hasFolder_erase hne (fun heq => hnot (heq ▸ there)) there
  have hwithin : ∀ {other inner name}, fs.HasFolder other → fs.placeIn other name = .ok inner →
      (fs.erase passed).placeIn other name = .ok inner := by
    intro other inner name there within
    exact (placeIn_erase hne (fun heq => hnot (heq ▸ there)) name).trans within
  induction hreach with
  | done here => exact .inl (.done (hother here))
  | idle here idle later ih =>
      exact ih.imp (fun hwithout => .idle (hother here) idle hwithout) id
  | up here later ih => exact ih.imp (fun hwithout => .up (hother here) hwithout) id
  | down here name notUp within later ih =>
      exact ih.imp
        (fun hwithout => .down (hother here) name notUp (hwithin here within) hwithout) id
  | @follow links place inner segment target rest arrival here name notUp within link later ih =>
      by_cases hinner : inner = passed
      · -- behind the link there is a folder, with what is left of the path to go
        right
        obtain ⟨hinside, -⟩ := place_of_placeIn within
        obtain ⟨middle, hfront, -⟩ := (reaches_append_iff _ _ _ _ _ _).1 later
        have htail : passed.tail = place := by rw [← hinner, hinside]; rfl
        exact ⟨target, links, middle, hinner ▸ link, by rw [htail]; exact hfront,
          later.linksLeft_le⟩
      · have hlink : (fs.erase passed).node? inner = some (.link target) := by
          rw [node?_erase fs hne, if_neg hinner, link]
        exact ih.imp
          (fun hwithout => .follow (hother here) name notUp (hwithin here within) hlink hwithout) id

/-- A link that was followed to a folder leads to that folder in the end too, if anywhere. -/
theorem Follows.hasFolder {fs : FileSystem} {place : Location} {arrival final : Arrival}
    (h : fs.Follows place arrival)
    (hwalk : fs.walkFrom arrival.linksLeft place.tail place [] = .ok final) :
    fs.HasFolder final.place := by
  obtain ⟨target, left, middle, hlink, hreach, hless⟩ := h
  unfold walkFrom at hwalk
  rw [hlink] at hwalk
  cases hlinks : arrival.linksLeft with
  | zero => rw [hlinks] at hwalk; cases hwalk
  | succ fewer =>
      rw [hlinks] at hwalk hless
      have hwalk : fs.walk fewer (startOf target place.tail) target.segments = .ok final := by
        simpa using hwalk
      have hmore := walk_more (left - fewer) _ _ _ hwalk
      rw [Nat.add_sub_cancel' (by omega)] at hmore
      obtain ⟨hsame, hfolder⟩ := (reaches_iff_walk _ _ _ _ _).1 hreach
      cases hmore.symm.trans hsame
      exact hfolder

/-- **A path that leads to something else than a folder does without the place of its entry.** -/
theorem locateEntry_erase_of_locate {fs : FileSystem} {p : Path} {noName : FileError}
    {place final : Location} (hentry : fs.locateEntry p noName = .ok ⟨place, false⟩)
    (hlocate : fs.locate p = .ok final) (hnot : ¬ fs.HasFolder final) :
    (fs.erase place).locateEntry p noName = .ok ⟨place, false⟩ := by
  obtain ⟨hcheck, ending, arrival, hending, hdot, hup, hreach, hplace, hslash⟩ :=
    (locateEntry_eq_ok_iff _ _ _ _).1 hentry
  have hinside : place = ending.last :: arrival.place := (place_of_placeIn hplace).1
  have hne : place ≠ [] := by rw [hinside]; exact List.cons_ne_nil _ _
  have htail : place.tail = arrival.place := by rw [hinside]; rfl
  obtain ⟨-, links, hwalk⟩ := (locate_eq_ok_iff fs p final).1 hlocate
  have hlast : fs.walkFrom arrival.linksLeft place.tail place [] = .ok ⟨final, links⟩ := by
    rw [htail, ← walk_segments_of_entry hending hslash.symm hdot hup hreach hplace]
    exact hwalk
  have hnotHere : ¬ fs.HasFolder place := by
    intro here
    unfold walkFrom at hlast
    have hsame : final = place := by
      rcases here with here | here
      all_goals
        rw [here] at hlast
        cases (walk_nil fs _ _).symm.trans hlast
        rfl
    exact hnot (hsame ▸ here)
  rcases hreach.erase_or_follows hne hnotHere with hwithout | hfollows
  · refine (locateEntry_eq_ok_iff _ _ _ _).2
      ⟨hcheck, ending, arrival, hending, hdot, hup, hwithout, ?_, hslash⟩
    rw [← (erase_extendsTo fs hne).placeIn_eq hwithout.hasFolder_arrival]
    exact hplace
  · exact absurd (hfollows.hasFolder hlast) hnot

end FileSystem

/-! ## §3. Documents. -/

open FileSystem

/-- **Where a document is read, the path is clear.** -/
theorem isClear_of_read {s : Store} {fs : FileSystem} (hcheck : checkPath s.folder = .ok ())
    {place : Location} (hentry : s.landing fs = .ok ⟨place, false⟩) {content : Bytes}
    (hread : fs.read s.path = .ok content) : s.IsClear fs := by
  have hready : s.ready fs = fs := Store.ready_of_isFolder (isFolder_of_read hcheck hentry hread)
  obtain ⟨node, hnode, hcontent⟩ := bind_eq_ok hread
  obtain ⟨final, hlocate, hnode⟩ := bind_eq_ok hnode
  have hnot : ¬ fs.HasFolder final := by
    rintro (hfolder | hfolder)
    all_goals
      rw [hfolder] at hnode
      cases hnode
      cases hcontent
  intro e he
  cases hentry.symm.trans he
  unfold Store.landing at hentry
  rw [hready] at hentry ⊢
  exact locateEntry_erase_of_locate hentry hlocate hnot

/-- **Where entries were loaded, what is saved is what is loaded next.** -/
theorem isClear_of_loaded {s : Store} {fs after : FileSystem} {r changed : Registry}
    (hload : s.loaded fs = .ok r) (hentries : r.entries ≠ [])
    (hsave : runOn (s.save changed) fs = (.ok (), after)) : s.IsClear fs := by
  obtain ⟨place, hplace⟩ := save_eq_ok hsave
  unfold Store.loaded at hload
  cases hread : fs.read s.path with
  | ok content => exact isClear_of_read hplace.folder hplace.entry hread
  | error cause =>
      rw [hread] at hload
      cases cause <;> cases hload
      exact absurd rfl hentries

end Keyring
