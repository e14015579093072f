/-
  Keyring.Proofs.Command.Requests
  ────────────────────────────────
  **WHAT A RUN OF THE PROGRAM ASKS OF A STORE.**

  A run reads its arguments, finds the configuration folder, and puts one
  `Request` to the store there.  The report is made of the request and its
  answer (`reportOn`), and the tree is afterwards as the store has left it.

      Action.request — the request of an action
      served         — a request with the report on its answer
      outcome        — a run on a file system

  Main results:
    * `execute_run` — an action is its request and the report on it;
    * `ends_outcome` — all that a run can come to.
-/
import Keyring.Command.Run
import Keyring.Proofs.Store.Requests

namespace Keyring

open Terminal (Line)

/-- The path counted from the root; it stays as it is where that needs a working folder that is
gone, or where the path is empty. -/
def FileSystem.absolute (fs : FileSystem) (p : Path) : Path :=
  match fs.workingPath with
  | .ok folder => (p.absolute? folder).getD p
  | .error _ => if p.isAbsolute then (p.absolute? p).getD p else p

namespace Command

/-! ## §1. Requests and reports. -/

/-- What an action asks of the store.  A key to add must come from somewhere, and its settings
must be readable. -/
def Action.request (fs : FileSystem) : Action → Except KeyError Request
  | .add a =>
    match a.key, a.cert, a.plugin, a.id with
    | some key, some cert, _, _ =>
      .ok (.addKey a.name (fs.absolute key) (fs.absolute cert) a.makeDefault)
    | _, _, some plugin, some id =>
      (readSettings a.pluginConfig).map fun config =>
        .addPluginKey false a.name ⟨id, plugin, config⟩ a.makeDefault
    | _, _, _, _ => .error (.invalidConfig .noSource)
  | .list => .ok .listKeys
  | .present name => .ok (.resolveKey name)
  | .choose name => .ok (.setDefault name)
  | .remove name => .ok (.removeKey name)

/-- The action is one that changes the registry. -/
def Action.isChange : Action → Bool
  | .add _ | .choose _ | .remove _ => true
  | .list | .present _ => false

/-- What is reported of a request and its answer.  No request gets an answer to another. -/
def reportOn (s : Store) : Request → Answer → List Line
  | .addKey name _ _ _, .registry r =>
    .success ("Added signing key: " ++ name) :: defaultLine r name
  | .addPluginKey _ name key _, .registry r =>
    .success ("Added plugin signing key: " ++ name ++ " (" ++ key.pluginName ++ ")")
      :: defaultLine r name
  | .setDefault name, .done => [.success ("Default signing key set to: " ++ name)]
  | .removeKey _, .names removed =>
    removed.map fun name => .success ("Removed signing key: " ++ name)
  | .listKeys, .registry r => listing s r
  | .resolveKey _, .entry found => presentation found
  | _, _ => []

/-- The actions that change the registry are those whose requests do. -/
theorem isChange_of_request {fs : FileSystem} {action : Action} {q : Request}
    (h : action.request fs = .ok q) : q.isChange = action.isChange := by
  cases action with
  | add a =>
      unfold Action.request at h
      dsimp only at h
      split at h
      · cases h
        rfl
      · obtain ⟨config, -, rfl⟩ := map_eq_ok h
        rfl
      · cases h
  | _ =>
      cases h
      rfl

/-! ## §2. Actions. -/

theorem absolute_run (p : Path) (fs : FileSystem) :
    runOn (liftM (absolute p : DiskM Path) : ExceptT KeyError DiskM Path) fs
      = (.ok (fs.absolute p), fs) := by
  unfold FileSystem.absolute absolute
  show (Except.ok (Id.run (StateT.run (match fs.workingPath with
    | .ok folder => pure ((p.absolute? folder).getD p)
    | .error _ => pure (if p.isAbsolute = true then (p.absolute? p).getD p else p) :
      DiskM Path) fs)).1, _) = _
  cases fs.workingPath <;> rfl

/-- A request that is put to the store, and the report on its answer. -/
def served (s : Store) (q : Request) (fs : FileSystem) : Except KeyError (List Line) × FileSystem :=
  ((runOn (s.serve q) fs).1.map (reportOn s q), (runOn (s.serve q) fs).2)

/-- What is reported in the end can be made of the answer. -/
theorem report_run {s : Store} (q : Request) {operation : ExceptT KeyError DiskM α}
    (answer : α → Answer) {report : α → List Line}
    (hserve : s.serve q = operation >>= fun value => pure (answer value))
    (hreport : ∀ value, reportOn s q (answer value) = report value) (fs : FileSystem) :
    runOn (operation >>= fun value => pure (report value)) fs = served s q fs := by
  unfold served
  rw [hserve, runOn_bind, runOn_bind]
  rcases runOn operation fs with ⟨e | value, after⟩
  · rfl
  · show (Except.ok (report value), after) = (Except.ok (reportOn s q (answer value)), after)
    rw [hreport]

theorem addKeyPair_run (s : Store) (name : String) (key cert : Path) (makeDefault : Bool)
    (fs : FileSystem) :
    runOn (addKeyPair s name key cert makeDefault) fs
      = served s (.addKey name (fs.absolute key) (fs.absolute cert) makeDefault) fs := by
  unfold addKeyPair
  rw [runOn_bind, absolute_run]
  show runOn (liftM (absolute cert) >>= _) fs = _
  rw [runOn_bind, absolute_run]
  exact report_run (.addKey name _ _ makeDefault) .registry rfl (fun _ => rfl) fs

theorem addPluginKey_run (s : Store) (name plugin id : String) (settings : List String)
    (makeDefault : Bool) (fs : FileSystem) :
    runOn (addPluginKey s name plugin id settings makeDefault) fs
      = match readSettings settings with
        | .error e => (.error e, fs)
        | .ok config => served s (.addPluginKey false name ⟨id, plugin, config⟩ makeDefault) fs := by
  unfold addPluginKey
  rw [runOn_bind, runOn_lift]
  cases readSettings settings with
  | error e => rfl
  | ok config =>
      exact report_run (.addPluginKey false name ⟨id, plugin, config⟩ makeDefault) .registry rfl
        (fun _ => rfl) fs

/-- **An action puts its request to the store and reports on the answer.** -/
theorem execute_run (s : Store) (action : Action) (fs : FileSystem) :
    runOn (execute s action) fs = match action.request fs with
      | .error e => (.error e, fs)
      | .ok q => served s q fs := by
  cases action with
  | add a =>
      show runOn (add s a) fs = _
      unfold add
      split
      · next key cert hkey hcert =>
        simp only [Action.request, hkey, hcert]
        exact addKeyPair_run s a.name key cert a.makeDefault fs
      · next plugin id hplugin hid hno =>
        simp only [Action.request, hplugin, hid]
        rw [addPluginKey_run]
        cases readSettings a.pluginConfig <;> rfl
      · simp only [Action.request]
        rfl
  | list => exact report_run .listKeys .registry rfl (fun _ => rfl) fs
  | present name => exact report_run (.resolveKey name) .entry rfl (fun _ => rfl) fs
  | choose name => exact report_run (.setDefault name) (fun _ => .done) rfl (fun _ => rfl) fs
  | remove name => exact report_run (.removeKey name) .names rfl (fun _ => rfl) fs

/-! ## §3. Runs. -/

/-- What a run of the program comes to on a file system, and the file system after it. -/
def outcome (e : Environment) (arguments : List Bytes) (fs : FileSystem) : Result × FileSystem :=
  Id.run ((run e arguments : DiskM Result).run fs)

/-- All that a run can come to. -/
inductive Ends (e : Environment) (arguments : List Bytes) (fs : FileSystem) :
    Result × FileSystem → Prop where
  /-- The arguments name no action. -/
  | stopped {stop : Stop} (read : interpret arguments e.configDir = .error stop) :
      Ends e arguments fs (stop.result, fs)
  /-- There is no folder for the store. -/
  | nowhere {invocation : Invocation} {cause : KeyError}
      (read : interpret arguments e.configDir = .ok invocation)
      (missing : e.configFolder invocation.configDir = .error cause) :
      Ends e arguments fs (resultOf e (.error cause), fs)
  /-- The action comes to no request. -/
  | unasked {invocation : Invocation} {folder : Path} {cause : KeyError}
      (read : interpret arguments e.configDir = .ok invocation)
      (found : e.configFolder invocation.configDir = .ok folder)
      (unfit : invocation.action.request fs = .error cause) :
      Ends e arguments fs (resultOf e (.error cause), fs)
  /-- The store is asked. -/
  | asked {invocation : Invocation} {folder : Path} {q : Request}
      (read : interpret arguments e.configDir = .ok invocation)
      (found : e.configFolder invocation.configDir = .ok folder)
      (asks : invocation.action.request fs = .ok q) :
      Ends e arguments fs (resultOf e (served (Store.inFolder folder) q fs).1,
        (served (Store.inFolder folder) q fs).2)

/-- **All that a run can come to.** -/
theorem ends_outcome (e : Environment) (arguments : List Bytes) (fs : FileSystem) :
    Ends e arguments fs (outcome e arguments fs) := by
  unfold outcome run
  cases hread : interpret arguments e.configDir with
  | error stop => exact .stopped hread
  | ok invocation =>
      -- the result is made of what carrying out the action comes to
      show Ends e arguments fs
        (resultOf e (runOn (carryOut e invocation.configDir invocation.action) fs).1,
          (runOn (carryOut e invocation.configDir invocation.action) fs).2)
      unfold carryOut
      rw [runOn_bind, runOn_lift]
      cases hfolder : e.configFolder invocation.configDir with
      | error cause => exact .nowhere hread hfolder
      | ok folder =>
          dsimp only
          rw [execute_run]
          cases hrequest : invocation.action.request fs with
          | error cause => exact .unasked hread hfolder hrequest
          | ok q => exact .asked hread hfolder hrequest

/-- A run with an action and a folder is the request of the action, if it comes to one. -/
theorem outcome_of_folder {e : Environment} {arguments : List Bytes} {invocation : Invocation}
    {folder : Path} (hread : interpret arguments e.configDir = .ok invocation)
    (hfolder : e.configFolder invocation.configDir = .ok folder) (fs : FileSystem) :
    outcome e arguments fs = match invocation.action.request fs with
      | .error cause => (resultOf e (.error cause), fs)
      | .ok q => (resultOf e (served (Store.inFolder folder) q fs).1,
          (served (Store.inFolder folder) q fs).2) := by
  unfold outcome run
  rw [hread]
  show (resultOf e (runOn (carryOut e invocation.configDir invocation.action) fs).1,
    (runOn (carryOut e invocation.configDir invocation.action) fs).2) = _
  unfold carryOut
  rw [runOn_bind, runOn_lift, hfolder]
  dsimp only
  rw [execute_run]
  cases invocation.action.request fs <;> rfl

/-- A run whose action comes to a request is that request, put to the store in its folder. -/
theorem outcome_of_request {e : Environment} {arguments : List Bytes} {fs : FileSystem}
    {invocation : Invocation} {folder : Path} {q : Request}
    (hread : interpret arguments e.configDir = .ok invocation)
    (hfolder : e.configFolder invocation.configDir = .ok folder)
    (hrequest : invocation.action.request fs = .ok q) :
    outcome e arguments fs = (resultOf e (served (Store.inFolder folder) q fs).1,
      (served (Store.inFolder folder) q fs).2) := by
  rw [outcome_of_folder hread hfolder, hrequest]

/-- A run that succeeds has put its request to the store and reports on the answer. -/
theorem answered_of_outcome {e : Environment} {arguments : List Bytes} {fs after : FileSystem}
    {result : Result} {invocation : Invocation} (h : outcome e arguments fs = (result, after))
    (hread : interpret arguments e.configDir = .ok invocation) (hcode : result.exitCode = 0) :
    ∃ folder q answer, e.configFolder invocation.configDir = .ok folder
      ∧ invocation.action.request fs = .ok q
      ∧ runOn ((Store.inFolder folder).serve q) fs = (.ok answer, after)
      ∧ result = resultOf e (.ok (reportOn (Store.inFolder folder) q answer)) := by
  have hends := ends_outcome e arguments fs
  rw [h] at hends
  cases hends with
  | stopped hstopped => rw [hread] at hstopped; cases hstopped
  | nowhere => cases hcode
  | unasked => cases hcode
  | @asked other folder q hother hfound hasks =>
      obtain rfl : invocation = other := Except.ok.inj (hread.symm.trans hother)
      unfold served at hcode ⊢
      rcases hserve : runOn ((Store.inFolder folder).serve q) fs with ⟨cause | answer, left⟩
      · rw [hserve] at hcode
        cases hcode
      · exact ⟨folder, q, answer, hfound, hasks, hserve, rfl⟩

/-- Nothing in the environment. -/
def bareEnvironment : Environment where
  configDir := none
  xdgConfigHome := none
  home := none
  accountHome := none
  forceColor := none
  noColor := none
  color := none
  onTerminal := false

end Command

end Keyring
