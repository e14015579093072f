/-
  Keyring.Proofs.Command.Sources
  ────────────────────────────────
  **WHERE A NEW KEY COMES FROM.**

  A new key is a pair of files (`--key`, `--cert`) or a key of a plugin
  (`--plugin`, `--id`, with settings).  Options for both at once are
  refused, but not all of them: an option that is missing is forgiven where
  the other source excludes it.  So the second option of a source passes
  along with the other source, unused, and with it whatever needs it:

      --key --cert --id        — a pair; the id is dropped
      --plugin --id --cert     — a plugin key; the certificate is dropped

      Given.Serves source  — the options that are accepted for a source
      Given.Asks source    — the request that is made of them

  Main results:
    * `checkOptions_eq_ok_iff` — what is accepted is what serves a source;
    * `asks_of_serves`, `stored_of_outcome` — the source is the one stored;
    * `sources_of_add` — every use of `add`.
-/
import Keyring.Proofs.Command.Requests
import Keyring.Proofs.Command.Scan

namespace Keyring

open Terminal (Line)

/-- Where a key comes from. -/
inductive Source where
  | pair
  | plugin
  deriving DecidableEq, Repr

/-- The source of a key. -/
def Material.source : Material → Source
  | .keyPair _ => .pair
  | .pluginKey _ => .plugin

/-! ## §1. The options of a source. -/

namespace Source

open Command

def other : Source → Source
  | .pair => .plugin
  | .plugin => .pair

/-- The option that chooses a source. -/
def chosenBy : Source → Opt
  | .pair => .key
  | .plugin => .plugin

/-- The option without which no option of the source may stand. -/
def rest : Source → Opt
  | .pair => .cert
  | .plugin => .id

/-- All options that belong to a source. -/
def options : Source → List Opt
  | .pair => [.key, .cert]
  | .plugin => [.plugin, .id, .pluginConfig]

theorem eq_or_eq_other (source s : Source) : s = source ∨ s = source.other := by
  cases source <;> cases s <;> simp [other]

protected theorem exists_iff {p : Source → Prop} : (∃ source, p source) ↔ p .pair ∨ p .plugin := by
  constructor
  · rintro ⟨_ | _, h⟩
    · exact .inl h
    · exact .inr h
  · rintro (h | h)
    · exact ⟨.pair, h⟩
    · exact ⟨.plugin, h⟩

@[simp] theorem other_other (source : Source) : source.other.other = source := by
  cases source <;> rfl

theorem chosenBy_mem_options (source : Source) : source.chosenBy ∈ source.options := by
  cases source <;> decide

theorem rest_mem_options (source : Source) : source.rest ∈ source.options := by
  cases source <;> decide

end Source

namespace Command

/-- The options are accepted for a key from this source.  Of the other source only what is unused
may be there, and only together with its second option. -/
structure Given.Serves (g : Given) (source : Source) : Prop where
  chosen : g.has source.chosenBy = true
  complete : g.has source.rest = true
  unrivalled : g.has source.other.chosenBy = false
  excused : ∀ o ∈ source.other.options, g.has o = true → g.has source.other.rest = true

variable {g : Given} {source : Source} {o : Opt} {options : List Opt}

/-- One source is served at most. -/
theorem Given.Serves.eq {s : Source} (h : g.Serves source) (hs : g.Serves s) : s = source := by
  rcases source.eq_or_eq_other s with rfl | rfl
  · rfl
  · have hrival := hs.chosen
    rw [h.unrivalled] at hrival
    cases hrival

/-- No option of the other source is dropped just if its second option is not there. -/
theorem Given.Serves.pure_iff (h : g.Serves source) :
    (∀ o ∈ source.other.options, g.has o = false) ↔ g.has source.other.rest = false := by
  constructor
  · intro hpure
    exact hpure _ source.other.rest_mem_options
  · intro hrest o ho
    by_contra hhas
    rw [h.excused o ho (by simpa using hhas)] at hrest
    cases hrest

/-! ## §2. Options that require others. -/

theorem requiredBy_go_nil (steps : Nat) : requiredBy.go steps [] = [] := by
  cases steps <;> rfl

theorem requiredBy_go_succ (steps : Nat) (options : List Opt) :
    requiredBy.go (steps + 1) options
      = options.flatMap Opt.requires ++ requiredBy.go steps (options.flatMap Opt.requires) := by
  rw [requiredBy.go]
  cases options.flatMap Opt.requires with
  | nil => rw [requiredBy_go_nil]; rfl
  | cons o next => rfl

theorem mem_requiredBy_go_succ_iff (steps : Nat) :
    o ∈ requiredBy.go (steps + 1) options ↔ (∃ given ∈ options, o ∈ given.requires)
      ∨ o ∈ requiredBy.go steps (options.flatMap Opt.requires) := by
  rw [requiredBy_go_succ, List.mem_append, List.mem_flatMap]

/-- What some options require is what one of them requires. -/
theorem mem_requiredBy_go_iff (steps : Nat) :
    o ∈ requiredBy.go steps options ↔ ∃ given ∈ options, o ∈ requiredBy.go steps [given] := by
  -- on the steps; those required by one option are its own and what these require
  induction steps generalizing options with
  | zero => simp [requiredBy.go]
  | succ steps ih =>
      simp only [mem_requiredBy_go_succ_iff, List.flatMap_singleton, List.mem_singleton,
        exists_eq_left]
      rw [ih]
      constructor
      · rintro (⟨given, hgiven, ho⟩ | ⟨next, hnext, ho⟩)
        · exact ⟨given, hgiven, .inl ho⟩
        · obtain ⟨given, hgiven, hnext⟩ := List.mem_flatMap.1 hnext
          exact ⟨given, hgiven, .inr (ih.2 ⟨next, hnext, ho⟩)⟩
      · rintro ⟨given, hgiven, ho | ho⟩
        · exact .inl ⟨given, hgiven, ho⟩
        · obtain ⟨next, hnext, ho⟩ := ih.1 ho
          exact .inr ⟨next, List.mem_flatMap.2 ⟨given, hgiven, hnext⟩, ho⟩

/-- An option requires, directly or through others, the two options of its source. -/
theorem mem_requiredBy_singleton_iff (given : Opt) :
    o ∈ requiredBy [given] ↔
      ∃ source : Source, given ∈ source.options ∧ (o = source.chosenBy ∨ o = source.rest) := by
  rw [Source.exists_iff]
  cases given <;> cases o <;> decide

theorem mem_requiredBy_iff :
    o ∈ requiredBy options ↔ ∃ source : Source, (∃ given ∈ source.options, given ∈ options)
      ∧ (o = source.chosenBy ∨ o = source.rest) := by
  have hsingle : o ∈ requiredBy options ↔ ∃ given ∈ options, o ∈ requiredBy [given] :=
    mem_requiredBy_go_iff 10
  rw [hsingle]
  constructor
  · rintro ⟨given, hgiven, ho⟩
    obtain ⟨source, hsource, ho⟩ := (mem_requiredBy_singleton_iff given).1 ho
    exact ⟨source, ⟨given, hsource, hgiven⟩, ho⟩
  · rintro ⟨source, ⟨given, hsource, hgiven⟩, ho⟩
    exact ⟨given, hgiven, (mem_requiredBy_singleton_iff given).2 ⟨source, hsource, ho⟩⟩

/-- Only the options that choose a source exclude each other. -/
theorem excludes_iff :
    g.excludes o = true ↔ ∃ source : Source, o = source.chosenBy
      ∧ g.has source.other.chosenBy = true := by
  rw [Source.exists_iff]
  cases o <;> simp [Given.excludes, Opt.conflicts, Source.chosenBy, Source.other]

theorem excludes_chosenBy (source : Source) :
    g.excludes source.chosenBy = g.has source.other.chosenBy := by
  cases source <;> simp [Given.excludes, Opt.conflicts, Source.chosenBy, Source.other]

theorem excludes_rest (source : Source) : g.excludes source.rest = false := by
  cases source <;> rfl

theorem mem_names_iff : o ∈ g.names ↔ g.has o = true := by
  simp [Given.names, Given.has_iff]

theorem conflict_eq_none_iff : g.names.find? g.excludes = none ↔ ∀ source : Source,
    ¬ (g.has source.chosenBy = true ∧ g.has source.other.chosenBy = true) := by
  simp only [List.find?_eq_none, mem_names_iff, excludes_iff]
  constructor
  · rintro h source ⟨hchosen, hrival⟩
    exact h _ hchosen ⟨source, rfl, hrival⟩
  · rintro h o hchosen ⟨source, rfl, hrival⟩
    exact h source ⟨hchosen, hrival⟩

theorem sources_any_has_iff :
    sources.any g.has = true ↔ ∃ source : Source, g.has source.chosenBy = true := by
  rw [Source.exists_iff]
  simp [sources, Source.chosenBy]

theorem missing_eq_none_iff :
    (requiredBy g.names).find? (fun o => !g.has o && !g.excludes o) = none ↔
      ∀ source : Source, (∃ o ∈ source.options, g.has o = true) →
        (g.has source.chosenBy = true ∨ g.has source.other.chosenBy = true)
        ∧ g.has source.rest = true := by
  simp only [List.find?_eq_none, mem_requiredBy_iff, mem_names_iff, Bool.and_eq_true,
    Bool.not_eq_true', not_and, Bool.not_eq_false]
  constructor
  · intro h source hgiven
    have hchosen := h source.chosenBy ⟨source, hgiven, .inl rfl⟩
    have hrest := h source.rest ⟨source, hgiven, .inr rfl⟩
    rw [excludes_chosenBy] at hchosen
    rw [excludes_rest] at hrest
    grind
  · rintro h o ⟨source, hgiven, rfl | rfl⟩ hmissing
    · rw [excludes_chosenBy]
      exact (h source hgiven).1.resolve_left (by simp [hmissing])
    · rw [(h source hgiven).2] at hmissing
      cases hmissing

/-- **The options that are accepted are those that serve a source.** -/
theorem checkOptions_eq_ok_iff (g : Given) : checkOptions g = .ok () ↔ ∃ source, g.Serves source := by
  have hrules : checkOptions g = .ok () ↔ g.names.find? g.excludes = none
      ∧ sources.any g.has = true
      ∧ (requiredBy g.names).find? (fun o => !g.has o && !g.excludes o) = none := by
    unfold checkOptions
    grind
  rw [hrules, conflict_eq_none_iff, sources_any_has_iff, missing_eq_none_iff]
  constructor
  · rintro ⟨hsingle, ⟨source, hchosen⟩, hneeds⟩
    have hrival : g.has source.other.chosenBy = false := by
      simpa [hchosen] using hsingle source
    refine ⟨source, hchosen, (hneeds source ⟨_, source.chosenBy_mem_options, hchosen⟩).2, hrival, ?_⟩
    intro o ho hhas
    exact (hneeds source.other ⟨o, ho, hhas⟩).2
  · rintro ⟨source, h⟩
    refine ⟨?_, ⟨source, h.chosen⟩, ?_⟩
    · intro s hs
      rcases source.eq_or_eq_other s with rfl | rfl
      · simp [h.unrivalled] at hs
      · simp [h.unrivalled] at hs
    · rintro s ⟨o, ho, hhas⟩
      rcases source.eq_or_eq_other s with rfl | rfl
      · exact ⟨.inl h.chosen, h.complete⟩
      · exact ⟨.inr (by simpa using h.chosen), h.excused o ho hhas⟩

/-! ## §3. How a key is added. -/

section Adding

variable {m : Type → Type} [Monad m] [MonadDisk m]

/-- How a key from a source is added, by the values of its options. -/
inductive Given.Adds (g : Given) (s : Store) (name : String) :
    Source → ExceptT KeyError m (List Line) → Prop where
  | pair {key cert : Path} (keyGiven : (.key, .path key) ∈ g.options)
      (certGiven : (.cert, .path cert) ∈ g.options) :
      Adds g s name .pair (addKeyPair s name key cert (g.has .default))
  | plugin {plugin id : String} (pluginGiven : (.plugin, .text plugin) ∈ g.options)
      (idGiven : (.id, .text id) ∈ g.options) :
      Adds g s name .plugin
        (addPluginKey s name plugin id (g.texts .pluginConfig) (g.has .default))

/-- **With options that serve a source, a key of that source is added.**  That there is no source
is never what is found wrong then. -/
theorem adds_of_serves (htyped : g.IsTyped) (h : g.Serves source) (s : Store) (name : String) :
    g.Adds s name source
      (execute s (.add (g.addRequest name)) : ExceptT KeyError m (List Line)) := by
  cases source with
  | pair =>
      obtain ⟨key, hkey⟩ := htyped.exists_path? (o := .key) rfl h.chosen
      obtain ⟨cert, hcert⟩ := htyped.exists_path? (o := .cert) rfl h.complete
      simp only [execute, add, Given.addRequest, hkey, hcert]
      exact .pair (Given.mem_of_path? hkey) (Given.mem_of_path? hcert)
  | plugin =>
      obtain ⟨plugin, hplugin⟩ := htyped.exists_text? (o := .plugin) rfl h.chosen
      obtain ⟨id, hid⟩ := htyped.exists_text? (o := .id) rfl h.complete
      have hkey : g.path? .key = none := Given.path?_eq_none h.unrivalled
      simp only [execute, add, Given.addRequest, hkey, hplugin, hid]
      exact .plugin (Given.mem_of_text? hplugin) (Given.mem_of_text? hid)

end Adding

section Storing

variable {s : Store} {q : Request} {name : String} {fs after : FileSystem} {lines : List Line}

/-- A change that is served has changed what was loaded and saved the result. -/
theorem saved_of_served (hchange : q.isChange = true) (h : served s q fs = (.ok lines, after)) :
    ∃ r changed answer, (runOn s.load fs).1 = .ok r ∧ r.respond fs q = .ok (answer, changed)
      ∧ runOn (s.save changed) fs = (.ok (), after) := by
  obtain ⟨answer, hanswer, -⟩ := map_eq_ok (congrArg Prod.fst h)
  have hafter : (runOn (s.serve q) fs).2 = after := congrArg Prod.snd h
  obtain ⟨r, changed, hload, hrespond, hsave⟩ :=
    serve_change_eq_ok hchange (Prod.ext hanswer hafter)
  exact ⟨r, changed, answer, by rw [load_run, hload], hrespond, hsave⟩

/-- **A new key that is stored comes from the source by whose options it was added.** -/
theorem Given.Adds.stored {adding : ExceptT KeyError DiskM (List Line)}
    (h : g.Adds s name source adding) (hrun : runOn adding fs = (.ok lines, after)) :
    ∃ r material, (runOn s.load fs).1 = .ok r ∧ material.source = source
      ∧ runOn (s.save (r.push ⟨name, material⟩ (g.has .default))) fs = (.ok (), after) := by
  cases h with
  | pair keyGiven certGiven =>
      rw [addKeyPair_run] at hrun
      obtain ⟨r, changed, answer, hload, hrespond, hsave⟩ := saved_of_served rfl hrun
      obtain ⟨pushed, hcall, hrest⟩ := bind_eq_ok hrespond
      cases hrest
      obtain ⟨keyPath, certificatePath, -, -, -, -, rfl⟩ := Registry.add_cases hcall
      exact ⟨r, .keyPair ⟨keyPath, certificatePath⟩, hload, rfl, hsave⟩
  | plugin pluginGiven idGiven =>
      rw [addPluginKey_run] at hrun
      cases hsettings : readSettings (g.texts .pluginConfig) with
      | error cause => rw [hsettings] at hrun; cases hrun
      | ok config =>
          rw [hsettings] at hrun
          obtain ⟨r, changed, answer, hload, hrespond, hsave⟩ := saved_of_served rfl hrun
          obtain ⟨pushed, hcall, hrest⟩ := bind_eq_ok hrespond
          cases hrest
          obtain ⟨-, -, -, -, rfl⟩ := Registry.addPlugin_cases hcall
          exact ⟨r, _, hload, rfl, hsave⟩

end Storing

/-! ## §4. Uses of `add`. -/

section Uses

variable {arguments : List Bytes} {levels : List (Level × Given)} {inherited : Option Bytes}
  {e : Environment} {fs after : FileSystem} {invocation : Invocation} {name : String}

theorem mem_of_innermost {v : Verb} (h : innermost levels = (.verb v, g)) :
    (.verb v, g) ∈ levels := by
  unfold innermost at h
  rw [List.getLastD_eq_getLast?] at h
  cases hlast : levels.getLast? with
  | none => rw [hlast] at h; cases h
  | some l =>
      rw [hlast] at h
      cases h
      exact List.mem_of_getLast? hlast

theorem interpret_add (hscan : scan .program .nothing arguments = .ok levels)
    (hadd : innermost levels = (.verb .add, g)) (inherited : Option Bytes) :
    interpret arguments inherited = (do
      let folder ← configFolder levels inherited
      checkOptions g
      let name ← g.operand
      return ⟨folder, .add (g.addRequest name)⟩) := by
  unfold interpret
  rw [hscan, ok_bind]
  cases configFolder levels inherited with
  | error stop => rfl
  | ok folder =>
      rw [ok_bind, hadd]
      show (do
        let action ← Verb.action .add g
        return ⟨folder, action⟩ : Except Stop Invocation) = _
      simp only [Verb.action, ok_bind]
      cases checkOptions g with
      | error stop => rfl
      | ok _ => cases g.operand <;> rfl

theorem interpret_add_eq_ok_iff (hscan : scan .program .nothing arguments = .ok levels)
    (hadd : innermost levels = (.verb .add, g)) :
    interpret arguments inherited = .ok invocation ↔ ∃ folder name,
      configFolder levels inherited = .ok folder ∧ (∃ source, g.Serves source)
        ∧ g.operand = .ok name ∧ invocation = ⟨folder, .add (g.addRequest name)⟩ := by
  rw [interpret_add hscan hadd, ← checkOptions_eq_ok_iff]
  constructor
  · intro h
    obtain ⟨folder, hfolder, h⟩ := bind_eq_ok h
    obtain ⟨_, hcheck, h⟩ := bind_eq_ok h
    obtain ⟨name, hname, h⟩ := bind_eq_ok h
    cases h
    exact ⟨folder, name, hfolder, hcheck, hname, rfl⟩
  · rintro ⟨folder, name, hfolder, hcheck, hname, rfl⟩
    rw [hfolder, ok_bind, hcheck, ok_bind, hname, ok_bind]
    rfl

theorem exists_usage_of_checkOptions {stop : Stop} (h : checkOptions g = .error stop) :
    ∃ cause, stop = .usage cause := by
  unfold checkOptions at h
  grind

theorem exists_usage_of_configFolder {stop : Stop}
    (h : configFolder levels inherited = .error stop) : ∃ cause, stop = .usage cause := by
  unfold configFolder at h
  grind

/-- Where `add` has been reached, only a wrong use of it can keep it from being carried out. -/
theorem exists_usage_of_interpret (hscan : scan .program .nothing arguments = .ok levels)
    (hadd : innermost levels = (.verb .add, g)) {stop : Stop}
    (h : interpret arguments inherited = .error stop) : ∃ cause, stop = .usage cause := by
  rw [interpret_add hscan hadd] at h
  cases hfolder : configFolder levels inherited with
  | error stop' =>
      rw [hfolder] at h
      cases h
      exact exists_usage_of_configFolder hfolder
  | ok folder =>
      rw [hfolder, ok_bind] at h
      cases hcheck : checkOptions g with
      | error stop' =>
          rw [hcheck] at h
          cases h
          exact exists_usage_of_checkOptions hcheck
      | ok _ =>
          rw [hcheck, ok_bind] at h
          unfold Given.operand at h
          split at h
          · cases h
          · cases h
            exact ⟨_, rfl⟩

theorem outcome_of_usage {cause : UsageError}
    (h : interpret arguments e.configDir = .error (.usage cause)) :
    (outcome e arguments fs).1.exitCode = 2 ∧ (outcome e arguments fs).2 = fs := by
  unfold outcome run
  rw [h]
  exact ⟨rfl, rfl⟩

/-- A run that succeeds has carried out its action in a folder that was found. -/
theorem exists_run_of_exitCode (hread : interpret arguments e.configDir = .ok invocation)
    (hcode : (outcome e arguments fs).1.exitCode = 0) :
    ∃ folder lines, e.configFolder invocation.configDir = .ok folder
      ∧ runOn (execute (Store.inFolder folder) invocation.action) fs
        = (.ok lines, (outcome e arguments fs).2) := by
  -- the code tells what carrying out the action has come to
  have houtcome : outcome e arguments fs
      = (resultOf e (runOn (carryOut e invocation.configDir invocation.action) fs).1,
        (runOn (carryOut e invocation.configDir invocation.action) fs).2) := by
    unfold outcome run
    rw [hread]
    rfl
  rw [houtcome] at hcode ⊢
  unfold carryOut at hcode ⊢
  rw [runOn_bind, runOn_lift] at hcode ⊢
  cases hfolder : e.configFolder invocation.configDir with
  | error cause => rw [hfolder] at hcode; cases hcode
  | ok folder =>
      rw [hfolder] at hcode
      dsimp only at hcode ⊢
      cases hrun : runOn (execute (Store.inFolder folder) invocation.action) fs with
      | mk result after =>
          cases result with
          | error cause => rw [hrun] at hcode; cases hcode
          | ok lines => exact ⟨folder, lines, rfl, hrun⟩

end Uses

/-- **What `add` makes of the options for its sources.**  It is carried out just if they serve a
source, besides what else it needs; otherwise the code is 2 and nothing is changed.  It then takes
that source and stores a key of it; and of the options for the other source one is there, without
any use, just if the second one is. -/
theorem sources_of_add {arguments : List Bytes} {levels : List (Level × Given)}
    (hscan : scan .program .nothing arguments = .ok levels)
    (hadd : innermost levels = (.verb .add, g)) (e : Environment) (fs : FileSystem) :
    (∀ invocation, interpret arguments e.configDir = .ok invocation ↔ ∃ folder name,
        configFolder levels e.configDir = .ok folder ∧ (∃ source, g.Serves source)
          ∧ g.operand = .ok name ∧ invocation = ⟨folder, .add (g.addRequest name)⟩)
    ∧ ((∀ source, ¬ g.Serves source) →
        (outcome e arguments fs).1.exitCode = 2 ∧ (outcome e arguments fs).2 = fs)
    ∧ ∀ source, g.Serves source →
        (∀ (m : Type → Type) [Monad m] [MonadDisk m] (s : Store) (name : String),
          g.Adds s name source
            (execute s (.add (g.addRequest name)) : ExceptT KeyError m (List Line)))
        ∧ ((outcome e arguments fs).1.exitCode = 0 →
            ∃ folder r name material, g.operand = .ok name
              ∧ (runOn (Store.inFolder folder).load fs).1 = .ok r ∧ material.source = source
              ∧ runOn ((Store.inFolder folder).save (r.push ⟨name, material⟩ (g.has .default))) fs
                = (.ok (), (outcome e arguments fs).2))
        ∧ ((∀ o ∈ source.other.options, g.has o = false) ↔ g.has source.other.rest = false) := by
  have htyped : g.IsTyped := by
    have harises := arises_of_scan hscan .nothing (innermost levels) ?_
    · rw [hadd] at harises
      exact harises.isTyped
    · rw [hadd]
      exact mem_of_innermost hadd
  refine ⟨fun invocation => interpret_add_eq_ok_iff hscan hadd, ?_, ?_⟩
  · intro h
    cases hread : interpret arguments e.configDir with
    | ok invocation =>
        obtain ⟨-, -, -, ⟨source, hserves⟩, -⟩ := (interpret_add_eq_ok_iff hscan hadd).1 hread
        exact absurd hserves (h source)
    | error stop =>
        obtain ⟨cause, rfl⟩ := exists_usage_of_interpret hscan hadd hread
        exact outcome_of_usage hread
  · intro source h
    refine ⟨fun m _ _ s name => adds_of_serves htyped h s name, ?_, h.pure_iff⟩
    intro hcode
    cases hread : interpret arguments e.configDir with
    | error stop =>
        obtain ⟨cause, rfl⟩ := exists_usage_of_interpret hscan hadd hread
        rw [(outcome_of_usage hread).1] at hcode
        cases hcode
    | ok invocation =>
        obtain ⟨named, name, -, -, hname, rfl⟩ := (interpret_add_eq_ok_iff hscan hadd).1 hread
        obtain ⟨folder, lines, -, hrun⟩ := exists_run_of_exitCode hread hcode
        obtain ⟨r, material, hload, hsource, hsave⟩ :=
          (adds_of_serves htyped h (Store.inFolder folder) name).stored hrun
        exact ⟨folder, r, name, material, hname, hload, hsource, hsave⟩

/-- The arguments for a pair of files, and an id besides. -/
def strayArguments : List Bytes :=
  ["--config-dir", "d", "keys", "add", "n", "--key", "k", "--cert", "c", "--id", "i"].map
    Bytes.ofString

/-- What `add` is given by them. -/
def strayOptions : Given where
  options := [(.key, .path (.ofString "k")), (.cert, .path (.ofString "c")), (.id, .text "i")]
  operands := ["n"]

/-- What each level is given. -/
def strayLevels : List (Level × Given) :=
  [(.program, ⟨[(.configDir, .path (.ofString "d"))], []⟩), (.keys, .nothing),
    (.verb .add, strayOptions)]

/-- The two files. -/
def pairHome : FileSystem where
  nodes := [([Bytes.ofString "k"], .file [] FileSystem.ownerOnly),
    ([Bytes.ofString "c"], .file [] FileSystem.ownerOnly)]
  workingFolder := []

theorem strayOptions_serves : strayOptions.Serves .pair where
  chosen := rfl
  complete := rfl
  unrivalled := rfl
  excused := fun _ _ _ => rfl

/-- **An option that is given and dropped.**  With an id besides the two files the code is 0, and
a pair is stored. -/
theorem strayId_dropped :
    strayOptions.has .id = true
      ∧ (outcome bareEnvironment strayArguments pairHome).1.exitCode = 0
      ∧ ∃ folder r name material, strayOptions.operand = .ok name
          ∧ (runOn (Store.inFolder folder).load pairHome).1 = .ok r ∧ material.source = .pair
          ∧ runOn ((Store.inFolder folder).save (r.push ⟨name, material⟩ false)) pairHome
            = (.ok (), (outcome bareEnvironment strayArguments pairHome).2) := by
  have hscan : scan .program .nothing strayArguments = .ok strayLevels := by decide +kernel
  have hcode : (outcome bareEnvironment strayArguments pairHome).1.exitCode = 0 := by
    decide +kernel
  obtain ⟨-, -, hserves⟩ := sources_of_add hscan rfl bareEnvironment pairHome
  obtain ⟨-, hstored, -⟩ := hserves .pair strayOptions_serves
  exact ⟨rfl, hcode, hstored hcode⟩

end Command

end Keyring
