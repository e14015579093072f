/-
  Keyring.Proofs.Store.Requests
  ────────────────────────────────
  **WHAT A STORED REGISTRY IS ASKED, AND WHAT IT ANSWERS.**

  A `Request` is one of the six operations of a store with its arguments,
  and `Store.serve` performs it.  `Registry.respond` is the same operation
  on a registry held in memory: it sees of the disk only what became of the
  key files.

  Everything that a request does to a file system goes through three
  equations: `load_run`, `save_run` and `serve_run`.  What follows about
  stores is derived from these and never unfolds an operation again.
-/
import Keyring.Proofs.Document.RoundTrip
import Keyring.Proofs.Registry.Calls
import Keyring.Proofs.Store.Runs

namespace Keyring

/-! ## §1. Requests and answers. -/

/-- What may be asked of a stored registry. -/
inductive Request where
  | addKey (name : String) (key certificate : Path) (makeDefault : Bool)
  | addPluginKey (cancelled : Bool) (name : String) (key : PluginKey) (makeDefault : Bool)
  | setDefault (name : String)
  | removeKey (name : String)
  | listKeys
  | resolveKey (name : Option String)

/-- What a request is answered with. -/
inductive Answer where
  | registry (r : Registry)
  | done
  | names (removed : List String)
  | entry (found : Entry)

/-- The request is one that changes the registry. -/
def Request.isChange : Request → Bool
  | .listKeys | .resolveKey _ => false
  | _ => true

/-- Performs a request. -/
def Store.serve {m : Type → Type} [Monad m] [MonadDisk m] (s : Store) :
    Request → ExceptT KeyError m Answer
  | .addKey name key certificate makeDefault =>
    return .registry (← s.addKey name key certificate makeDefault)
  | .addPluginKey cancelled name key makeDefault =>
    return .registry (← s.addPluginKey cancelled name key makeDefault)
  | .setDefault name => do
    s.setDefault name
    return .done
  | .removeKey name => return .names (← s.removeKey name)
  | .listKeys => return .registry (← s.listKeys)
  | .resolveKey name => return .entry (← s.resolveKey name)

/-! ## §2. Looking. -/

/-- Looking changes nothing, and what is seen decides how it goes on. -/
theorem runOn_look (f : FileSystem → α) (next : α → DiskM (Except KeyError β))
    (fs : FileSystem) :
    runOn (ExceptT.mk (DiskM.look f >>= next)) fs = runOn (ExceptT.mk (next (f fs))) fs := rfl

/-! ## §3. Loading. -/

/-- What the document is taken for. -/
def Store.loaded (s : Store) (fs : FileSystem) : Except KeyError Registry :=
  match fs.read s.path with
  | .error .notFound => .ok Registry.empty
  | .error cause => .error (.io cause)
  | .ok content => s.decode content

/-- Loading looks at the document and leaves everything as it is. -/
theorem load_run (s : Store) (fs : FileSystem) : runOn s.load fs = (s.loaded fs, fs) := by
  unfold Store.load Store.loaded
  show runOn (ExceptT.mk (DiskM.look (fun fs => fs.read s.path) >>= _)) fs = _
  rw [runOn_look]
  cases fs.read s.path with
  | ok content => rfl
  | error cause => cases cause <;> rfl

/-- What a document holds is sound. -/
theorem sound_of_decode {s : Store} {content : Bytes} {r : Registry}
    (h : s.decode content = .ok r) : r.Sound := by
  unfold Store.decode at h
  split at h
  · cases h
  · split at h
    · cases h
    · next parsed hparse =>
      obtain ⟨rfl, hrules⟩ := (Registry.validated_eq_ok_iff parsed r).1 h
      exact ⟨hrules, Document.isUsable_of_parse hparse⟩

/-- **What is loaded is sound.** -/
theorem sound_of_loaded {s : Store} {fs : FileSystem} {r : Registry}
    (h : s.loaded fs = .ok r) : r.Sound := by
  unfold Store.loaded at h
  split at h
  · cases h
    exact Registry.sound_empty
  · cases h
  · exact sound_of_decode h

/-- **A sound registry is read back from its document.** -/
theorem decode_encode (s : Store) {r : Registry} (h : r.Sound) :
    s.decode (Store.encode r) = .ok r := by
  simp only [Store.decode, Store.encode, Bytes.toString?_ofString,
    Document.parse_print_append h.usable "\n" rfl]
  exact (Registry.validated_eq_ok_iff r r).2 ⟨rfl, h.toKeepsRules⟩

/-! ## §4. Saving. -/

/-- What making folders comes to, and the file system after it. -/
def FileSystem.withFolders (fs : FileSystem) (ps : List Path) :
    Except FileError Unit × FileSystem :=
  Id.run ((makeFolders ps : DiskM (Except FileError Unit)).run fs)

theorem alter_apply (f : FileSystem → Except FileError FileSystem) (fs : FileSystem) :
    DiskM.alter f fs = match f fs with
      | .ok after => (.ok (), after)
      | .error cause => (.error cause, fs) := by
  simp only [DiskM.alter, DiskM.change]
  cases f fs <;> rfl

/-- An operation that fails has changed nothing. -/
theorem alter_endsIn {good : Unit → FileSystem → Prop} {bad : FileError → FileSystem → Prop}
    {f : FileSystem → Except FileError FileSystem} {fs : FileSystem}
    (hok : ∀ after, f fs = .ok after → good () after)
    (herror : ∀ cause, f fs = .error cause → bad cause fs) :
    EndsIn good bad (DiskM.alter f fs) := by
  rw [alter_apply]
  cases hresult : f fs with
  | ok after => exact hok after hresult
  | error cause => exact herror cause hresult

theorem alter_keeps {inv : FileSystem → Prop} {f : FileSystem → Except FileError FileSystem}
    {fs : FileSystem} (h : inv fs) (hf : ∀ after, f fs = .ok after → inv after) :
    inv (DiskM.alter f fs).2 :=
  endsIn_same.1 (alter_endsIn hf fun _ _ => h)

theorem alter_bind_run (f : FileSystem → Except FileError FileSystem)
    (next : Except FileError Unit → DiskM β) (fs : FileSystem) :
    Id.run ((DiskM.alter f >>= next).run fs) = match f fs with
      | .ok after => Id.run ((next (.ok ())).run after)
      | .error cause => Id.run ((next (.error cause)).run fs) := by
  show Id.run ((next (DiskM.alter f fs).1).run (DiskM.alter f fs).2) = _
  rw [alter_apply]
  cases f fs <;> rfl

theorem change_run (f : FileSystem → Except FileError (α × FileSystem)) (fs : FileSystem) :
    Id.run ((DiskM.change f).run fs) = match f fs with
      | .ok (value, after) => (.ok value, after)
      | .error cause => (.error cause, fs) := rfl

theorem change_endsIn {good : α → FileSystem → Prop} {bad : FileError → FileSystem → Prop}
    {f : FileSystem → Except FileError (α × FileSystem)} {fs : FileSystem}
    (hok : ∀ value after, f fs = .ok (value, after) → good value after)
    (herror : ∀ cause, f fs = .error cause → bad cause fs) :
    EndsIn good bad (DiskM.change f fs) := by
  unfold DiskM.change
  split
  · next value after hresult => exact hok value after hresult
  · next cause hresult => exact herror cause hresult

/-- What replacing the document by way of a temporary file comes to. -/
def Store.replaced (s : Store) (r : Registry) (temporary : Path) (fs : FileSystem) :
    Except KeyError Unit × FileSystem :=
  runOn (Store.orRemove temporary (s.replace r temporary)) fs

/-- **Saving checks the rules, makes folders, creates a temporary file and replaces the document
with it.** -/
theorem save_run (s : Store) (r : Registry) (fs : FileSystem) :
    runOn (s.save r) fs = match r.validated with
      | .error e => (.error e, fs)
      | .ok _ => match fs.withFolders s.folder.ancestors with
        | (.error cause, fs) => (.error (.io cause), fs)
        | (.ok (), fs) => match fs.createTemporary s.folder with
          | .error cause => (.error (.io cause), fs)
          | .ok (temporary, fs) => s.replaced r temporary fs := by
  unfold Store.save
  rw [runOn_bind, runOn_lift]
  cases r.validated with
  | error e => rfl
  | ok _ =>
      -- each operation goes on from what the one before has left
      show runOn (Store.io (makeFolders s.folder.ancestors) >>= fun _ =>
          Store.io (MonadDisk.createTemporary s.folder) >>= fun temporary =>
            Store.orRemove temporary (s.replace r temporary)) fs
        = match fs.withFolders s.folder.ancestors with
          | (.error cause, fs) => _
          | (.ok (), fs) => _
      rw [runOn_bind, runOn_io]
      unfold FileSystem.withFolders
      rcases Id.run ((makeFolders s.folder.ancestors : DiskM _).run fs) with ⟨_ | _, fs⟩
      · rfl
      show runOn (Store.io (DiskM.change fun fs => fs.createTemporary s.folder) >>= fun temporary =>
          Store.orRemove temporary (s.replace r temporary)) fs
        = match fs.createTemporary s.folder with
          | .error cause => _
          | .ok (temporary, fs) => _
      rw [runOn_bind, runOn_io, change_run]
      cases fs.createTemporary s.folder with
      | error cause => rfl
      | ok made => rfl

/-! ## §5. The same request on a registry in memory. -/

/-- What checking a key file comes to. -/
def FileSystem.keyFile (fs : FileSystem) (p : Path) : Except KeyError String :=
  (runOn (checkKeyFile p) fs).1

/-- Checking a key file changes nothing. -/
theorem checkKeyFile_run (p : Path) (fs : FileSystem) :
    runOn (checkKeyFile p) fs = (fs.keyFile p, fs) := by
  unfold FileSystem.keyFile checkKeyFile
  cases p.toString? with
  | none => rfl
  | some text =>
      show runOn (ExceptT.mk (DiskM.look (fun fs => fs.inspect p) >>= _)) fs
        = ((runOn (ExceptT.mk (DiskM.look (fun fs => fs.inspect p) >>= _)) fs).1, fs)
      rw [runOn_look]
      cases fs.inspect p with
      | error cause => rfl
      | ok kind => cases kind <;> rfl

/-- The path of a key file is looked at first, and then what it leads to. -/
theorem keyFile_eq (fs : FileSystem) (p : Path) :
    fs.keyFile p = match p.toString? with
      | none => .error (.invalidConfig (.pathNotText p))
      | some text => match fs.inspect p with
        | .error cause => .error (.keyFileNotFound p cause)
        | .ok .file => .ok text
        | .ok _ => .error (.keyFileNotFound p .notRegular) := by
  unfold FileSystem.keyFile checkKeyFile
  cases p.toString? with
  | none => rfl
  | some text =>
      show (runOn (ExceptT.mk (DiskM.look (fun fs => fs.inspect p) >>= _)) fs).1 = _
      rw [runOn_look]
      cases fs.inspect p with
      | error cause => rfl
      | ok kind => cases kind <;> rfl

namespace Registry

/-- What a request comes to on a registry in memory: its answer, and the registry after it.  Of
the file system only the key files are looked at. -/
def respond (r : Registry) (fs : FileSystem) : Request → Except KeyError (Answer × Registry)
  | .addKey name key certificate makeDefault => do
    let changed ← Id.run (r.add name (ExceptT.mk (fs.keyFile key))
      (ExceptT.mk (fs.keyFile certificate)) makeDefault).run
    return (.registry changed, changed)
  | .addPluginKey cancelled name key makeDefault => do
    let changed ← r.addPlugin cancelled name key makeDefault
    return (.registry changed, changed)
  | .setDefault name => do
    let changed ← r.updateDefault name
    return (.done, changed)
  | .removeKey name => do
    let (removed, left) ← r.remove name
    return (.names removed, left)
  | .listKeys => return (.registry r, r)
  | .resolveKey name => do
    let found ← r.resolve name
    return (.entry found, r)

/-- A request changes a registry by a call, or not at all. -/
theorem respond_cases {r changed : Registry} {fs : FileSystem} {q : Request} {answer : Answer}
    (h : r.respond fs q = .ok (answer, changed)) :
    changed = r ∨ ∃ call : Call, call.perform r = .ok changed := by
  -- every change is one call, and the other two requests only look
  cases q with
  | addKey name key certificate makeDefault =>
      obtain ⟨next, hcall, h⟩ := bind_eq_ok h
      cases h
      exact .inr ⟨.add name (fs.keyFile key) (fs.keyFile certificate) makeDefault, hcall⟩
  | addPluginKey cancelled name key makeDefault =>
      obtain ⟨next, hcall, h⟩ := bind_eq_ok h
      cases h
      exact .inr ⟨.addPlugin cancelled name key makeDefault, hcall⟩
  | setDefault name =>
      obtain ⟨next, hcall, h⟩ := bind_eq_ok h
      cases h
      exact .inr ⟨.updateDefault name, hcall⟩
  | removeKey name =>
      obtain ⟨⟨removed, left⟩, hcall, h⟩ := bind_eq_ok h
      cases h
      refine .inr ⟨.remove name, ?_⟩
      show (r.remove name).map (·.2) = _
      rw [hcall]
      rfl
  | listKeys =>
      cases h
      exact .inl rfl
  | resolveKey name =>
      obtain ⟨found, -, h⟩ := bind_eq_ok h
      cases h
      exact .inl rfl

theorem Sound.respond {r changed : Registry} (h : r.Sound) {fs : FileSystem} {q : Request}
    {answer : Answer} (hanswer : r.respond fs q = .ok (answer, changed)) : changed.Sound := by
  rcases respond_cases hanswer with rfl | ⟨call, hcall⟩
  · exact h
  · exact h.perform hcall

end Registry

/-! ## §6. A request, step by step. -/

theorem add_run (r : Registry) (name : String) (key certificate : Path) (makeDefault : Bool)
    (fs : FileSystem) :
    runOn (r.add name (checkKeyFile key) (checkKeyFile certificate) makeDefault) fs
      = (Id.run (r.add name (ExceptT.mk (fs.keyFile key)) (ExceptT.mk (fs.keyFile certificate))
          makeDefault).run, fs) := by
  unfold Registry.add
  rw [runOn_bind, runOn_lift]
  cases r.checkNewName name with
  | error e => rfl
  | ok _ =>
      -- the key is looked at first, and the certificate only if the key is there
      show runOn (checkKeyFile key >>= _) fs = _
      rw [runOn_bind, checkKeyFile_run]
      cases fs.keyFile key with
      | error e => rfl
      | ok keyPath =>
          show runOn (checkKeyFile certificate >>= _) fs = _
          rw [runOn_bind, checkKeyFile_run]
          cases fs.keyFile certificate <;> rfl

/-- Saves a registry and gives an answer if that succeeds. -/
def Store.saving (s : Store) (changed : Registry) (answer : α) (fs : FileSystem) :
    Except KeyError α × FileSystem :=
  ((runOn (s.save changed) fs).1.map fun _ => answer, (runOn (s.save changed) fs).2)

theorem save_then_run (s : Store) (changed : Registry) (answer : α) (fs : FileSystem) :
    runOn (s.save changed >>= fun _ => pure answer) fs = s.saving changed answer fs := by
  rw [runOn_bind]
  unfold Store.saving
  cases runOn (s.save changed) fs with
  | mk result after => cases result <;> rfl

/-- Load, change, save: the first of the three that fails ends it. -/
theorem mutate_then_run (s : Store) {operation : Registry → ExceptT KeyError DiskM Registry}
    {change : Registry → Except KeyError Registry} {fs : FileSystem}
    (hchange : ∀ r, runOn (operation r) fs = (change r, fs)) (answer : Registry → Answer) :
    runOn (s.mutate operation >>= fun changed => pure (answer changed)) fs
      = match s.loaded fs >>= fun r => change r >>= fun changed => pure (answer changed, changed)
        with
        | .error e => (.error e, fs)
        | .ok (answer, changed) => s.saving changed answer fs := by
  -- the answer is made at the end, and the save is the last step before it
  have hassoc : (s.mutate operation >>= fun changed => pure (answer changed))
      = s.load >>= fun r => operation r >>= fun changed =>
        s.save changed >>= fun _ => pure (answer changed) := by
    simp [Store.mutate]
  rw [hassoc, runOn_bind, load_run]
  cases s.loaded fs with
  | error e => rfl
  | ok r =>
      show runOn (operation r >>= fun changed => s.save changed >>= fun _ => pure (answer changed))
        fs = match change r >>= fun changed => pure (answer changed, changed) with
          | .error e => (Except.error e, fs)
          | .ok (answer, changed) => s.saving changed answer fs
      rw [runOn_bind, hchange]
      cases change r with
      | error e => rfl
      | ok changed => exact save_then_run s changed (answer changed) fs

/-- **A request loads, responds and, if it is a change, saves.** -/
theorem serve_run (s : Store) (q : Request) (fs : FileSystem) :
    runOn (s.serve q) fs = match s.loaded fs >>= (·.respond fs q) with
      | .error e => (.error e, fs)
      | .ok (answer, changed) =>
        if q.isChange then s.saving changed answer fs else (.ok answer, fs) := by
  cases q with
  | addKey name key certificate makeDefault =>
      exact mutate_then_run s (fun r => add_run r name key certificate makeDefault fs) .registry
  | addPluginKey cancelled name key makeDefault =>
      exact mutate_then_run s
        (fun r => runOn_lift (r.addPlugin cancelled name key makeDefault) fs) .registry
  | setDefault name =>
      have hdone : s.serve (.setDefault name)
          = s.mutate (fun r => (liftM (r.updateDefault name) : ExceptT KeyError DiskM Registry))
            >>= fun _ => (pure Answer.done : ExceptT KeyError DiskM Answer) := by
        simp [Store.serve, Store.setDefault]
      rw [hdone]
      exact mutate_then_run s (fun r => runOn_lift (r.updateDefault name) fs) fun _ => .done
  | removeKey name =>
      have hremove : s.serve (.removeKey name) = s.load >>= fun r =>
          (liftM (r.remove name) : ExceptT KeyError DiskM (List String × Registry)) >>= fun p =>
            s.save p.2 >>= fun _ => (pure (Answer.names p.1) : ExceptT KeyError DiskM Answer) := by
        simp [Store.serve, Store.removeKey]
      rw [hremove, runOn_bind, load_run]
      cases s.loaded fs with
      | error e => rfl
      | ok r =>
          show runOn (liftM (r.remove name) >>= _) fs
            = match r.remove name >>= fun p => pure (Answer.names p.1, p.2) with
              | .error e => (Except.error e, fs)
              | .ok (answer, changed) => s.saving changed answer fs
          rw [runOn_bind, runOn_lift]
          cases r.remove name with
          | error e => rfl
          | ok p => exact save_then_run s p.2 (Answer.names p.1) fs
  | listKeys =>
      show runOn (s.load >>= fun r => pure (Answer.registry r)) fs = _
      rw [runOn_bind, load_run]
      cases s.loaded fs <;> rfl
  | resolveKey name =>
      have hresolve : s.serve (.resolveKey name) = s.load >>= fun r =>
          (liftM (r.resolve name) : ExceptT KeyError DiskM Entry) >>= fun found =>
            (pure (Answer.entry found) : ExceptT KeyError DiskM Answer) := by
        simp [Store.serve, Store.resolveKey]
      rw [hresolve, runOn_bind, load_run]
      cases s.loaded fs with
      | error e => rfl
      | ok r =>
          show runOn (liftM (r.resolve name) >>= _) fs
            = match r.resolve name >>= fun found => pure (Answer.entry found, r) with
              | .error e => (Except.error e, fs)
              | .ok (answer, changed) => (.ok answer, fs)
          rw [runOn_bind, runOn_lift]
          cases r.resolve name <;> rfl

/-- What is loaded decides how a request goes on. -/
theorem serve_of_loaded {s : Store} {fs : FileSystem} {r : Registry} (hload : s.loaded fs = .ok r)
    (q : Request) :
    runOn (s.serve q) fs = match r.respond fs q with
      | .error e => (.error e, fs)
      | .ok (answer, changed) =>
        if q.isChange then s.saving changed answer fs else (.ok answer, fs) := by
  rw [serve_run, hload, ok_bind]

/-- A change that the loaded registry takes is saved. -/
theorem serve_change {s : Store} {q : Request} {fs : FileSystem} {r changed : Registry}
    {answer : Answer} (hload : s.loaded fs = .ok r) (hchange : q.isChange = true)
    (hanswer : r.respond fs q = .ok (answer, changed)) :
    runOn (s.serve q) fs = s.saving changed answer fs := by
  rw [serve_of_loaded hload, hanswer]
  exact if_pos hchange

/-- A request that only looks leaves everything as it is. -/
theorem serve_look (s : Store) {q : Request} (hlook : q.isChange = false) (fs : FileSystem) :
    (runOn (s.serve q) fs).2 = fs := by
  rw [serve_run]
  cases s.loaded fs >>= (·.respond fs q) with
  | error e => rfl
  | ok result =>
      show (if q.isChange = true then s.saving result.2 result.1 fs else _).2 = fs
      rw [if_neg (by simp [hlook])]

/-- A change that succeeds has loaded a registry, changed it, and saved the result. -/
theorem serve_change_eq_ok {s : Store} {q : Request} {fs after : FileSystem} {answer : Answer}
    (hchange : q.isChange = true) (h : runOn (s.serve q) fs = (.ok answer, after)) :
    ∃ r changed, s.loaded fs = .ok r ∧ r.respond fs q = .ok (answer, changed)
      ∧ runOn (s.save changed) fs = (.ok (), after) := by
  cases hload : s.loaded fs with
  | error e => rw [serve_run, hload] at h; cases h
  | ok r =>
      rw [serve_of_loaded hload] at h
      cases hanswer : r.respond fs q with
      | error e => rw [hanswer] at h; cases h
      | ok result =>
          obtain ⟨given, changed⟩ := result
          rw [hanswer] at h
          change (if q.isChange = true then s.saving changed given fs else _) = _ at h
          rw [if_pos hchange] at h
          unfold Store.saving at h
          -- the answer is given only after the save has succeeded
          rcases hsave : runOn (s.save changed) fs with ⟨_ | _, saved⟩
          · rw [hsave] at h; cases h
          · rw [hsave] at h
            cases h
            exact ⟨r, changed, rfl, hanswer, hsave⟩

/-- Looking an entry up loads the registry and looks there. -/
theorem resolveKey_run (s : Store) (name : Option String) (fs : FileSystem) :
    runOn (s.resolveKey name) fs = (s.loaded fs >>= fun r => r.resolve name, fs) := by
  unfold Store.resolveKey
  rw [runOn_bind, load_run]
  cases s.loaded fs with
  | error e => rfl
  | ok r => exact runOn_lift (r.resolve name) fs

/-- A request for a plugin key. -/
def askPluginKey : Request := .addPluginKey false "a" ⟨"i", "p", .empty⟩ false

/-- What it makes of the empty registry. -/
def onePluginKey : Registry where
  defaultName := some "a"
  entries := [⟨"a", .pluginKey ⟨"i", "p", .empty⟩⟩]

theorem respond_askPluginKey (fs : FileSystem) :
    Registry.empty.respond fs askPluginKey = .ok (.registry onePluginKey, onePluginKey) := rfl

end Keyring
