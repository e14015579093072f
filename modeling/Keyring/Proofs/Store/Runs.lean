/-
  Keyring.Proofs.Store.Runs
  ────────────────────────────────
  **WHAT A COMPUTATION ENDS IN.**

  A computation on a state, such as a file system, ends in an answer or in
  an error, and either way in a state.  What is true of that state is found
  step by step: what one step leaves is what the next one starts from, and
  the first to fail is the last.

      runOn  — the answer or error, and the state
      Meets  — from states of one kind to states of another, one for an
               answer and one for an error
      Keeps  — what is true before is true after, however it ends

  Main results:
    * `runOn_bind`, `runOn_io`, `orRemove_run` — the steps by equations;
    * `Meets.bind`, `Meets.io`, `Meets.orRemove`, `Meets.forM` — the same
      steps by what they leave;
    * `makeFolders_keeps` — folders, with those above them.
-/
import Keyring.Store.Operations

namespace Keyring

variable {σ : Type}

/-! ## §1. Runs. -/

/-- What a computation comes to in a state, such as a file system, and the state after it. -/
def runOn (action : ExceptT KeyError (StateM σ) α) (state : σ) : Except KeyError α × σ :=
  Id.run (action.run.run state)

theorem bind_run (first : StateM σ α) (next : α → StateM σ β) (state : σ) :
    Id.run ((first >>= next).run state)
      = Id.run ((next (Id.run (first.run state)).1).run (Id.run (first.run state)).2) := rfl

theorem runOn_bind (first : ExceptT KeyError (StateM σ) α)
    (next : α → ExceptT KeyError (StateM σ) β) (state : σ) :
    runOn (first >>= next) state = match runOn first state with
      | (.ok value, state) => runOn (next value) state
      | (.error e, state) => (.error e, state) := by
  show Id.run ((first.run >>= ExceptT.bindCont next).run state) = _
  show Id.run ((ExceptT.bindCont next (runOn first state).1).run (runOn first state).2) = _
  cases runOn first state with
  | mk result after =>
      cases result <;> rfl

theorem runOn_lift (value : Except KeyError α) (state : σ) :
    runOn (liftM value : ExceptT KeyError (StateM σ) α) state = (value, state) := by
  cases value <;> rfl

theorem runOn_io [MonadDisk (StateM σ)] (operation : StateM σ (Except FileError α)) (state : σ) :
    runOn (Store.io operation) state = match Id.run (operation.run state) with
      | (.ok value, state) => (.ok value, state)
      | (.error cause, state) => (.error (.io cause), state) := by
  show Id.run ((operation >>= _).run state) = _
  rw [bind_run]
  cases Id.run (operation.run state) with
  | mk result after => cases result <;> rfl

/-- What removing a file leaves. -/
def afterRemoval [MonadDisk (StateM σ)] (p : Path) (state : σ) : σ :=
  (Id.run ((MonadDisk.remove p : StateM σ (Except FileError Unit)).run state)).2

/-- If the work fails the file is removed, and whether that succeeds makes no difference. -/
theorem orRemove_run [MonadDisk (StateM σ)] (p : Path) (work : ExceptT KeyError (StateM σ) α)
    (state : σ) :
    runOn (Store.orRemove p work) state = match runOn work state with
      | (.ok value, after) => (.ok value, after)
      | (.error e, left) => (.error e, afterRemoval p left) := by
  show Id.run ((work.run >>= _).run state) = _
  rw [bind_run]
  show _ = match Id.run (work.run.run state) with
    | (.ok value, after) => _
    | (.error e, left) => _
  cases Id.run (work.run.run state) with
  | mk result after => cases result <;> rfl

/-! ## §2. From before to after. -/

/-- The outcome is an answer in a state of one kind, or an error in a state of another. -/
def EndsIn {ε : Type} (good : α → σ → Prop) (bad : ε → σ → Prop) : Except ε α × σ → Prop
  | (.ok value, after) => good value after
  | (.error e, after) => bad e after

/-- From states of one kind a computation ends in an answer in another, or an error in a third. -/
def Meets (before : σ → Prop) (action : ExceptT KeyError (StateM σ) α) (good : α → σ → Prop)
    (bad : KeyError → σ → Prop) : Prop :=
  ∀ state, before state → EndsIn good bad (runOn action state)

/-- What is true before the computation is true after it, however it ends. -/
abbrev Keeps (inv : σ → Prop) (action : ExceptT KeyError (StateM σ) α) : Prop :=
  Meets inv action (fun _ => inv) (fun _ => inv)

theorem endsIn_same {ε : Type} {inv : σ → Prop} {outcome : Except ε α × σ} :
    EndsIn (fun _ => inv) (fun _ => inv) outcome ↔ inv outcome.2 := by
  rcases outcome with ⟨_ | _, after⟩ <;> rfl

variable {before : σ → Prop} {middle good : α → σ → Prop} {bad : KeyError → σ → Prop}

namespace Meets

/-- What is true of the state after an error. -/
theorem of_error {action : ExceptT KeyError (StateM σ) α} (h : Meets before action good bad)
    {state : σ} (hstate : before state) {e : KeyError} (he : (runOn action state).1 = .error e) :
    bad e (runOn action state).2 := by
  have hend := h state hstate
  generalize runOn action state = outcome at hend he ⊢
  obtain ⟨result, after⟩ := outcome
  obtain rfl : result = .error e := he
  exact hend

/-- What an answer or an error is said to come with may be said more loosely. -/
theorem weaken {action : ExceptT KeyError (StateM σ) α} {good' : α → σ → Prop}
    {bad' : KeyError → σ → Prop} (h : Meets before action good bad)
    (hgood : ∀ value state, good value state → good' value state)
    (hbad : ∀ e state, bad e state → bad' e state) : Meets before action good' bad' := by
  intro state hstate
  have hend := h state hstate
  generalize runOn action state = outcome at hend ⊢
  obtain ⟨e | value, after⟩ := outcome
  · exact hbad e after hend
  · exact hgood value after hend

/-- **One step and then the next.** -/
theorem bind {first : ExceptT KeyError (StateM σ) α} {next : α → ExceptT KeyError (StateM σ) β}
    {good : β → σ → Prop} (hfirst : Meets before first middle bad)
    (hnext : ∀ value, Meets (middle value) (next value) good bad) :
    Meets before (first >>= next) good bad := by
  intro state hstate
  have hend := hfirst state hstate
  rw [runOn_bind]
  generalize runOn first state = outcome at hend ⊢
  obtain ⟨e | value, after⟩ := outcome
  · exact hend
  · exact hnext value after hend

theorem pure {value : α} (h : ∀ state, before state → good value state) :
    Meets before (Pure.pure value) good bad := h

/-- What is decided without the state leaves it as it is. -/
theorem lift {value : Except KeyError α}
    (h : ∀ state, before state → EndsIn good bad (value, state)) :
    Meets before (liftM value) good bad := by
  intro state hstate
  rw [runOn_lift]
  exact h state hstate

/-- **A file operation by itself.** -/
theorem io [MonadDisk (StateM σ)] {operation : StateM σ (Except FileError α)}
    (h : ∀ state, before state →
      EndsIn good (fun cause => bad (.io cause)) (Id.run (operation.run state))) :
    Meets before (Store.io operation) good bad := by
  intro state hstate
  have hend := h state hstate
  rw [runOn_io]
  generalize Id.run (operation.run state) = outcome at hend ⊢
  obtain ⟨cause | value, after⟩ := outcome
  · exact hend
  · exact hend

/-- **Work on a file that is removed if the work fails.** -/
theorem orRemove [MonadDisk (StateM σ)] {p : Path} {work : ExceptT KeyError (StateM σ) α}
    {left : KeyError → σ → Prop} (hwork : Meets before work good left)
    (hremove : ∀ e state, left e state → bad e (afterRemoval p state)) :
    Meets before (Store.orRemove p work) good bad := by
  intro state hstate
  have hend := hwork state hstate
  rw [orRemove_run]
  generalize runOn work state = outcome at hend ⊢
  obtain ⟨e | value, after⟩ := outcome
  · exact hremove e after hend
  · exact hend

/-- **One step for each item, each from what those before it have left.** -/
theorem forM {inv : σ → Prop} {step : β → ExceptT KeyError (StateM σ) PUnit} {items : List β}
    (hstep : ∀ item ∈ items, Meets inv (step item) (fun _ => inv) bad) :
    Meets inv (ForM.forM items step) (fun _ => inv) bad := by
  induction items with
  | nil => exact Meets.pure fun _ h => h
  | cons item items ih =>
      rw [List.forM_cons]
      refine (hstep item List.mem_cons_self).bind fun _ => ih fun other hother => ?_
      exact hstep other (List.mem_cons_of_mem item hother)

end Meets

namespace Keeps

variable {inv : σ → Prop}

theorem lift (value : Except KeyError α) : Keeps inv (liftM value) :=
  Meets.lift fun _ h => endsIn_same.2 h

theorem io [MonadDisk (StateM σ)] {operation : StateM σ (Except FileError α)}
    (h : ∀ state, inv state → inv (Id.run (operation.run state)).2) :
    Keeps inv (Store.io operation) :=
  Meets.io fun state hstate => endsIn_same.2 (h state hstate)

/-- An operation and what is made of its answer. -/
theorem andThen {first : StateM σ α} {next : α → StateM σ (Except KeyError β)}
    (hfirst : ∀ state, inv state → inv (Id.run (first.run state)).2)
    (hnext : ∀ value, Keeps inv (ExceptT.mk (next value))) :
    Keeps inv (ExceptT.mk (first >>= next)) :=
  fun state h => hnext _ _ (hfirst state h)

end Keeps

/-! ## §3. Making folders. -/

section Folders

variable [MonadDisk (StateM σ)]

theorem orPresent_keeps {inv : σ → Prop} {p : Path}
    (hlook : ∀ state, inv state →
      inv (Id.run ((MonadDisk.isFolder p : StateM σ Bool).run state)).2)
    (e : FileError) {state : σ} (h : inv state) :
    inv (Id.run ((makeFolders.orPresent p e : StateM σ (Except FileError Unit)).run state)).2 := by
  have hlooked := hlook state h
  unfold makeFolders.orPresent
  rw [bind_run]
  generalize Id.run ((MonadDisk.isFolder p : StateM σ Bool).run state) = looked at hlooked ⊢
  obtain ⟨_ | _, after⟩ := looked
  · exact hlooked
  · exact hlooked

/-- **What each attempt at a folder keeps is kept by making all of them, also where this fails.** -/
theorem makeFolders_keeps (inv : σ → Prop) {ps : List Path}
    (hmake : ∀ p ∈ ps, ∀ state, inv state →
      inv (Id.run ((MonadDisk.makeFolder p : StateM σ (Except FileError Unit)).run state)).2)
    (hlook : ∀ p state, inv state →
      inv (Id.run ((MonadDisk.isFolder p : StateM σ Bool).run state)).2) {state : σ}
    (h : inv state) :
    inv (Id.run ((makeFolders ps : StateM σ (Except FileError Unit)).run state)).2 := by
  -- on the paths: the folders above are made between two attempts at the first
  induction ps generalizing state with
  | nil => exact h
  | cons p above ih =>
      have hmade := hmake p List.mem_cons_self state h
      rw [makeFolders, bind_run]
      generalize Id.run ((MonadDisk.makeFolder p : StateM σ (Except FileError Unit)).run state)
        = made at hmade ⊢
      obtain ⟨cause | _, middle⟩ := made
      · cases cause
        case notFound =>
          have hfolders := ih (fun q hq => hmake q (List.mem_cons_of_mem p hq)) hmade
          dsimp only
          rw [bind_run]
          generalize Id.run ((makeFolders above : StateM σ (Except FileError Unit)).run middle)
            = folders at hfolders ⊢
          obtain ⟨cause | _, grown⟩ := folders
          · exact hfolders
          have hagain := hmake p List.mem_cons_self grown hfolders
          dsimp only
          rw [bind_run]
          generalize Id.run ((MonadDisk.makeFolder p : StateM σ (Except FileError Unit)).run grown)
            = again at hagain ⊢
          obtain ⟨cause | _, after⟩ := again
          · exact orPresent_keeps (hlook p) cause hagain
          · exact hagain
        all_goals exact orPresent_keeps (hlook p) _ hmade
      · exact hmade

end Folders

end Keyring
