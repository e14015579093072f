/-
  Keyring.Proofs.Command.Durability
  ────────────────────────────────
  **WHAT AN EXIT CODE STANDS FOR.**

  A run that fails says nothing on its output and leaves every file as it
  was.  A run that succeeds has done what was asked and says so, key by
  key: the report on a change tells of the registry that was saved.

  Whether that registry is there for the next run depends on the path of
  the document alone.  It is there just if the path is clear, and a path is
  not clear if the document comes to stand in its own way.

      AddRequest.Gives — the material that a new entry is made of
      Announces        — a change of a registry and the lines that tell of it

  Main results:
    * `pushed_of_respond` — what an addition does and how it is reported;
    * `announces_of_respond` — what is reported is what was done;
    * `durable_of_serve` — a change that succeeds, and what is loaded then;
    * `exit_code_reports` — all runs, by their exit code.
-/
import Keyring.Proofs.Command.Requests
import Keyring.Proofs.Registry.History
import Keyring.Proofs.Store.Failure
import Keyring.Proofs.Store.Transparency
import Keyring.Proofs.Terminal

namespace Keyring

open FileSystem
open Terminal (Line statusText)

namespace Command

/-! ## §1. Reports. -/

/-- The line about a new entry. -/
def additionLine (entry : Entry) : Line :=
  match entry.material with
  | .keyPair _ => .success ("Added signing key: " ++ entry.name)
  | .pluginKey key =>
    .success ("Added plugin signing key: " ++ entry.name ++ " (" ++ key.pluginName ++ ")")

/-- The message about a new entry. -/
def additionMessage (entry : Entry) : String :=
  match entry.material with
  | .keyPair _ => "Added signing key: " ++ entry.name
  | .pluginKey key => "Added plugin signing key: " ++ entry.name ++ " (" ++ key.pluginName ++ ")"

theorem additionLine_eq (entry : Entry) :
    additionLine entry = .success (additionMessage entry) := by
  unfold additionLine additionMessage
  cases entry.material <;> rfl

/-- What an action has made of a registry, and the lines that say just this. -/
inductive Announces (r changed : Registry) : Action → List Line → Prop where
  /-- A key under a new name, and whether it is the default now. -/
  | added {a : AddRequest} {material : Material} (fresh : a.name ∉ r.names)
      (new : changed.entries = r.entries ++ [⟨a.name, material⟩])
      (selected : changed.defaultName = some a.name ∨ changed.defaultName = r.defaultName) :
      Announces r changed (.add a)
        (additionLine ⟨a.name, material⟩ :: defaultLine changed a.name)
  /-- Another default. -/
  | chosen {name : String} (known : name ∈ r.names) (kept : changed.entries = r.entries)
      (selected : changed.defaultName = some name) :
      Announces r changed (.choose name) [.success ("Default signing key set to: " ++ name)]
  /-- A key less, which is then not the default either. -/
  | removed {name : String} (known : name ∈ r.names)
      (left : changed.entries = r.entries.filter fun entry => entry.name != name)
      (selected : changed.defaultName
        = if r.defaultName = some name then none else r.defaultName) :
      Announces r changed (.remove name) [.success ("Removed signing key: " ++ name)]

variable {r changed : Registry} {fs after : FileSystem} {q : Request} {answer : Answer}

/-- **Each line about a change is a message behind a tick.** -/
theorem Announces.messages {action : Action} {lines : List Line}
    (h : Announces r changed action lines) : ∃ messages : List String,
      lines = messages.map .success ∧ ∀ inColor, Terminal.report inColor lines
        = String.join (messages.map (statusText inColor .green "✓")) := by
  obtain ⟨messages, hlines⟩ : ∃ messages : List String, lines = messages.map .success := by
    cases h with
    | @added a material =>
        rw [additionLine_eq]
        unfold defaultLine
        split
        · exact ⟨[_, _], rfl⟩
        · exact ⟨[_], rfl⟩
    | chosen => exact ⟨[_], rfl⟩
    | removed => exact ⟨[_], rfl⟩
  refine ⟨messages, hlines, fun inColor => ?_⟩
  rw [hlines, Terminal.report_successes]

/-- What an entry is made of: two key files that are there, or a key of a plugin. -/
inductive AddRequest.Gives (a : AddRequest) (fs : FileSystem) : Material → Prop where
  | pair {key cert : Path} {keyPath certificatePath : String} (keyGiven : a.key = some key)
      (certGiven : a.cert = some cert) (keyFound : fs.keyFile (fs.absolute key) = .ok keyPath)
      (certFound : fs.keyFile (fs.absolute cert) = .ok certificatePath) :
      Gives a fs (.keyPair ⟨keyPath, certificatePath⟩)
  | plugin {plugin id : String} {config : Config} (pluginGiven : a.plugin = some plugin)
      (idGiven : a.id = some id) (unpaired : a.key = none ∨ a.cert = none)
      (settings : readSettings a.pluginConfig = .ok config) :
      Gives a fs (.pluginKey ⟨id, plugin, config⟩)

/-- An addition puts a new entry at the end, and it is reported by its line and by the line about
the default. -/
theorem pushed_of_respond {a : AddRequest} (hrequest : (Action.add a).request fs = .ok q)
    (hanswer : r.respond fs q = .ok (answer, changed)) :
    ∃ material, a.Gives fs material ∧ a.name ∉ r.names
      ∧ changed = r.push ⟨a.name, material⟩ a.makeDefault
      ∧ ∀ s, reportOn s q answer
        = additionLine ⟨a.name, material⟩ :: defaultLine changed a.name := by
  unfold Action.request at hrequest
  dsimp only at hrequest
  split at hrequest
  · next key cert hkey hcert =>
    cases hrequest
    obtain ⟨next, hcall, hrest⟩ := bind_eq_ok hanswer
    cases hrest
    obtain ⟨keyPath, certificatePath, hkeyFound, hcertFound, -, fresh, rfl⟩ :=
      Registry.add_cases hcall
    exact ⟨_, .pair hkey hcert hkeyFound hcertFound, fresh, rfl, fun _ => rfl⟩
  · next plugin id hplugin hid hunpaired =>
    obtain ⟨config, hsettings, rfl⟩ := map_eq_ok hrequest
    obtain ⟨next, hcall, hrest⟩ := bind_eq_ok hanswer
    cases hrest
    obtain ⟨-, -, fresh, -, rfl⟩ := Registry.addPlugin_cases hcall
    have hmissing : a.key = none ∨ a.cert = none := by
      cases hkey : a.key with
      | none => exact .inl rfl
      | some key =>
          cases hcert : a.cert with
          | none => exact .inr rfl
          | some cert => exact absurd hcert (hunpaired key cert hkey)
    exact ⟨_, .plugin hplugin hid hmissing hsettings, fresh, rfl, fun _ => rfl⟩
  · cases hrequest

theorem announces_push {a : AddRequest} {material : Material} (fresh : a.name ∉ r.names) :
    Announces r (r.push ⟨a.name, material⟩ a.makeDefault) (.add a)
      (additionLine ⟨a.name, material⟩
        :: defaultLine (r.push ⟨a.name, material⟩ a.makeDefault) a.name) := by
  refine .added fresh rfl ?_
  show (if _ then _ else _) = _ ∨ (if _ then _ else _) = _
  split
  · exact .inl rfl
  · exact .inr rfl

/-- **What is reported is what was done.** -/
theorem announces_of_respond {action : Action} (hsound : r.Sound) (s : Store)
    (hrequest : action.request fs = .ok q) (hchange : action.isChange = true)
    (hanswer : r.respond fs q = .ok (answer, changed)) :
    Announces r changed action (reportOn s q answer) := by
  cases action with
  | add a =>
      obtain ⟨material, -, fresh, rfl, hreport⟩ := pushed_of_respond hrequest hanswer
      rw [hreport]
      exact announces_push fresh
  | choose name =>
      cases hrequest
      obtain ⟨next, hcall, h⟩ := bind_eq_ok hanswer
      cases h
      obtain ⟨entry, hget, rfl⟩ := map_eq_ok hcall
      obtain ⟨-, hmem, rfl⟩ := Registry.get_eq_ok hget
      exact .chosen (List.mem_map_of_mem hmem) rfl rfl
  | remove name =>
      cases hrequest
      obtain ⟨⟨names, left⟩, hcall, h⟩ := bind_eq_ok hanswer
      cases h
      obtain ⟨entry, hget, h⟩ := map_eq_ok hcall
      cases h
      obtain ⟨-, hmem, rfl⟩ := Registry.get_eq_ok hget
      -- the first entry of the name is the only one
      refine .removed (List.mem_map_of_mem hmem)
        (Registry.eraseP_eq_filter entry.name hsound.distinct) ?_
      show (if r.isDefault entry.name = true then _ else _) = _
      simp [Registry.isDefault]
  | list => cases hchange
  | present name => cases hchange

/-! ## §2. Changes that succeed. -/

/-- **A change that succeeds is reported, and is there afterwards just if the path is clear.** -/
theorem durable_of_serve {s : Store} {action : Action} (hrequest : action.request fs = .ok q)
    (hchange : action.isChange = true) (h : runOn (s.serve q) fs = (.ok answer, after)) :
    ∃ r changed, (runOn s.load fs).1 = .ok r ∧ r.respond fs q = .ok (answer, changed)
      ∧ Announces r changed action (reportOn s q answer)
      ∧ ((runOn s.load after).1 = .ok changed ↔ s.IsClear fs) := by
  obtain ⟨r, changed, hload, hanswer, hsave⟩ :=
    serve_change_eq_ok ((isChange_of_request hrequest).trans hchange) h
  have hsound := sound_of_loaded hload
  rw [load_run, load_run]
  exact ⟨r, changed, hload, hanswer, announces_of_respond hsound s hrequest hchange hanswer,
    loaded_after_save_iff (hsound.respond hanswer) hsave⟩

/-! ## §3. Exit codes. -/

/-- **What an exit code stands for.**  Any code but 0 comes with an empty output and at most new
folders, and code 2 without those.  With code 0, whatever is no change has left the tree alone; and
a change has been made to the registry that was loaded, the output is the report on it, message by
message, and it is loaded from then on just if the path of the document is clear. -/
theorem exit_code_reports {e : Environment} {arguments : List Bytes} {result : Result}
    (h : outcome e arguments fs = (result, after)) :
    (result.exitCode ≠ 0 → result.output = "" ∧ fs.Grown after)
      ∧ (result.exitCode = 2 → after = fs)
      ∧ (result.exitCode = 0 → match interpret arguments e.configDir with
        | .error _ => after = fs
        | .ok invocation =>
          (invocation.action.isChange = false → after = fs)
          ∧ (invocation.action.isChange = true →
              ∃ folder r q answer changed lines,
                e.configFolder invocation.configDir = .ok folder
                ∧ (runOn (Store.inFolder folder).load fs).1 = .ok r
                ∧ invocation.action.request fs = .ok q
                ∧ r.respond fs q = .ok (answer, changed)
                ∧ Announces r changed invocation.action lines
                ∧ result.output = Terminal.report e.wantsColor lines
                ∧ (∃ messages : List String, lines = messages.map .success
                  ∧ result.output
                    = String.join (messages.map (statusText e.wantsColor .green "✓")))
                ∧ ((runOn (Store.inFolder folder).load after).1 = .ok changed
                    ↔ (Store.inFolder folder).IsClear fs))) := by
  have hends := ends_outcome e arguments fs
  rw [h] at hends
  cases hends with
  | @stopped stop hread =>
      refine ⟨fun hcode => ⟨?_, .refl fs⟩, fun _ => rfl, fun _ => ?_⟩
      · cases stop with
        | usage cause => rfl
        | version => exact absurd rfl hcode
        | help => exact absurd rfl hcode
      · rw [hread]
  -- without an answer the code is 1
  | nowhere hread hmissing => exact ⟨fun _ => ⟨rfl, .refl fs⟩, nofun, nofun⟩
  | unasked hread hfound hunfit => exact ⟨fun _ => ⟨rfl, .refl fs⟩, nofun, nofun⟩
  | @asked invocation folder q hread hfound hasks =>
      unfold served
      rcases hserve : runOn ((Store.inFolder folder).serve q) fs with ⟨cause | answer, left⟩
      · exact ⟨fun _ => ⟨rfl, (Store.serveFails_of_error hserve).leavesFiles.grown⟩, nofun, nofun⟩
      refine ⟨fun hcode => absurd rfl hcode, nofun, fun _ => ?_⟩
      rw [hread]
      constructor
      · intro hlook
        rw [← isChange_of_request hasks] at hlook
        have hsame := serve_look (Store.inFolder folder) hlook fs
        rwa [hserve] at hsame
      · intro hchange
        obtain ⟨r, changed, hload, hanswer, hannounces, hdurable⟩ :=
          durable_of_serve hasks hchange hserve
        obtain ⟨messages, hlines, htext⟩ := hannounces.messages
        exact ⟨folder, r, q, answer, changed, _, hfound, hload, hasks, hanswer, hannounces, rfl,
          ⟨messages, hlines, htext e.wantsColor⟩, hdurable⟩

/-- The path of a folder that is not there before its detour is, and is then reached through a link
in the place of the document. -/
def tangledFolder : String := "new/../signingkeys.json/.."

/-- The arguments for a plugin key in that folder. -/
def tangledArguments : List Bytes :=
  ["--config-dir", tangledFolder, "keys", "add", "a", "--plugin", "p", "--id", "i"].map
    Bytes.ofString

/-- A folder `d`, and a link to it under the name of the document. -/
def tangledHome : FileSystem where
  nodes := [([[0x64]], .folder), ([Bytes.ofString Store.documentName], .link ⟨[0x64]⟩)]
  workingFolder := []

theorem tangledHome_outcome : (outcome bareEnvironment tangledArguments tangledHome).1
    = ⟨0, "  ✓ Added plugin signing key: a (p)\n  ✓ 'a' is now the default signing key\n", ""⟩ := by
  decide +kernel

theorem tangledHome_not_clear :
    ¬ (Store.inFolder (.ofString tangledFolder)).IsClear tangledHome := fun hclear =>
  absurd (hclear ⟨[Bytes.ofString Store.documentName], false⟩ (by decide +kernel))
    (by decide +kernel)

/-- **A success that is reported and does not last.**  The code is 0 and the output tells of the
key; the registry with the key is not what is loaded from then on. -/
theorem tangledHome_not_durable :
    (outcome bareEnvironment tangledArguments tangledHome).1 = ⟨0,
        "  ✓ Added plugin signing key: a (p)\n  ✓ 'a' is now the default signing key\n", ""⟩
      ∧ (runOn (Store.inFolder (.ofString tangledFolder)).load tangledHome).1 = .ok .empty
      ∧ Registry.empty.respond tangledHome askPluginKey = .ok (.registry onePluginKey, onePluginKey)
      ∧ (runOn (Store.inFolder (.ofString tangledFolder)).load
          (outcome bareEnvironment tangledArguments tangledHome).2).1 ≠ .ok onePluginKey := by
  have hread : interpret tangledArguments none = .ok ⟨some (.ofString tangledFolder),
      .add ⟨"a", none, none, some "p", some "i", [], false⟩⟩ := by decide +kernel
  have hload : (Store.inFolder (.ofString tangledFolder)).loaded tangledHome = .ok .empty := by
    decide +kernel
  obtain ⟨-, -, hzero⟩ := exit_code_reports (Prod.ext tangledHome_outcome rfl :
    outcome bareEnvironment tangledArguments tangledHome = (_, _))
  have hzero := hzero rfl
  rw [show bareEnvironment.configDir = none from rfl, hread] at hzero
  obtain ⟨folder, r, q, answer, changed, lines, hfolder, hloaded, hrequest, hanswer, -, -, -,
    hdurable⟩ := hzero.2 rfl
  cases hfolder
  rw [load_run, hload] at hloaded
  cases hloaded
  cases hrequest
  cases hanswer
  exact ⟨tangledHome_outcome, by rw [load_run, hload], respond_askPluginKey _,
    fun h => tangledHome_not_clear (hdurable.1 h)⟩

end Command

end Keyring
