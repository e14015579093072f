/-
  Keyring.Proofs.Command.Settings
  ────────────────────────────────
  **WHICH ARGUMENTS ARE SETTINGS, AND WHAT THEY SET.**

  An argument is cut at its first equals sign.  It is a setting if the part
  in front is not blank; that part, trimmed, is the key, and whatever comes
  after the sign is the value.  Keys that differ only in the white space
  around them are one key, and the last argument with a key counts.

      IsCut     — the two parts of an argument
      IsSetting — the argument is a setting
      Sets      — the key and the value of one

  Arguments that are not all settings are refused for the first that is
  none, and a plugin key that is to be added with them is refused before
  the store is asked for anything.

  Main results:
    * `splitSetting?_eq_some_iff` — one argument;
    * `readSettings_eq_ok_iff`, `readSettings_eq_error_iff` — a list of them;
    * `settings_given` — what is made of a list, and what a run that adds a
      plugin key makes of one that is refused.
-/
import Keyring.Proofs.Command.Listing
import Keyring.Proofs.Text.Blank

namespace Keyring.Command

open Text (isBlank trim trimChars)

/-! ## §1. One argument. -/

/-- The argument at its first equals sign. -/
structure IsCut (argument front value : String) : Prop where
  whole : argument = front ++ "=" ++ value
  first : '=' ∉ front.toList

/-- The argument has an equals sign, and what stands before the first is not blank. -/
def IsSetting (argument : String) : Prop :=
  ∃ front value, IsCut argument front value ∧ isBlank front = false

/-- The argument sets this key to this value: the key is what stands before the first equals sign,
trimmed, and the value all that stands after it. -/
def Sets (argument key value : String) : Prop :=
  ∃ front, IsCut argument front value ∧ isBlank front = false ∧ trim front = key

theorem isSetting_iff {argument : String} :
    IsSetting argument ↔ ∃ key value, Sets argument key value := by
  constructor
  · rintro ⟨front, value, hcut, hsolid⟩
    exact ⟨trim front, value, front, hcut, hsolid, rfl⟩
  · rintro ⟨key, value, front, hcut, hsolid, -⟩
    exact ⟨front, value, hcut, hsolid⟩

theorem IsCut.toList_eq {argument front value : String} (h : IsCut argument front value) :
    argument.toList = front.toList ++ '=' :: value.toList := by
  rw [h.whole, String.toList_append, String.toList_append, List.append_assoc]
  rfl

/-- Without an equals sign there is nothing to cut. -/
theorem splitSetting?_of_not_mem {argument : String} (h : '=' ∉ argument.toList) :
    splitSetting? argument = none := by
  have hall : argument.toList.dropWhile (· != '=') = [] := by
    rw [List.dropWhile_eq_nil_iff]
    intro c hc
    rw [bne_iff_ne]
    rintro rfl
    exact h hc
  simp only [splitSetting?, hall]

/-- What is made of the two parts. -/
theorem splitSetting?_of_cut {argument front value : String} (h : IsCut argument front value) :
    splitSetting? argument = if isBlank front then none else some (trim front, value) := by
  have hno : ∀ c ∈ front.toList, (c != '=') = true := by
    intro c hc
    rw [bne_iff_ne]
    rintro rfl
    exact h.first hc
  have hback : argument.toList.dropWhile (· != '=') = '=' :: value.toList := by
    rw [h.toList_eq, List.dropWhile_append_of_pos hno]
    rfl
  have hfront : argument.toList.takeWhile (· != '=') = front.toList := by
    rw [h.toList_eq, List.takeWhile_append_of_pos hno, List.takeWhile_cons]
    exact List.append_nil _
  have hblank : (trimChars front.toList).isEmpty = isBlank front := by
    rw [Bool.eq_iff_iff, List.isEmpty_iff, ← Text.trim_eq_empty_iff, trim,
      String.ofList_eq_empty_iff]
  simp only [splitSetting?, hback, hfront, hblank, String.ofList_toList]
  rfl

/-- An argument has no equals sign, or it has a first one. -/
theorem exists_cut (argument : String) :
    '=' ∉ argument.toList ∨ ∃ front value, IsCut argument front value := by
  by_cases hmem : '=' ∈ argument.toList
  · obtain ⟨front, value, hsplit, hfirst⟩ := List.eq_append_cons_of_mem hmem
    refine .inr ⟨String.ofList front, String.ofList value, ?_, ?_⟩
    · rw [← String.ofList_toList (s := argument), hsplit, List.append_cons, String.ofList_append,
        String.ofList_append]
    · rwa [String.toList_ofList]
  · exact .inl hmem

/-- **An argument is split into the key and the value that it sets.** -/
theorem splitSetting?_eq_some_iff {argument key value : String} :
    splitSetting? argument = some (key, value) ↔ Sets argument key value := by
  constructor
  · intro h
    rcases exists_cut argument with hnone | ⟨front, rest, hcut⟩
    · rw [splitSetting?_of_not_mem hnone] at h
      cases h
    · rw [splitSetting?_of_cut hcut] at h
      cases hblank : isBlank front with
      | true =>
          rw [hblank] at h
          cases h
      | false =>
          rw [hblank] at h
          cases h
          exact ⟨front, hcut, hblank, rfl⟩
  · rintro ⟨front, hcut, hsolid, rfl⟩
    rw [splitSetting?_of_cut hcut, hsolid]
    rfl

theorem readSetting_eq_ok_iff {argument key value : String} :
    readSetting argument = .ok (key, value) ↔ Sets argument key value := by
  rw [← splitSetting?_eq_some_iff, readSetting]
  cases splitSetting? argument <;> simp

theorem exists_readSetting_iff {argument : String} :
    (∃ setting, readSetting argument = .ok setting) ↔ IsSetting argument := by
  rw [isSetting_iff]
  constructor
  · rintro ⟨⟨key, value⟩, h⟩
    exact ⟨key, value, readSetting_eq_ok_iff.1 h⟩
  · rintro ⟨key, value, h⟩
    exact ⟨(key, value), readSetting_eq_ok_iff.2 h⟩

/-- An argument is refused just if it is no setting, and it is quoted then. -/
theorem readSetting_eq_error_iff {argument : String} {cause : KeyError} :
    readSetting argument = .error cause
      ↔ ¬ IsSetting argument ∧ cause = .invalidConfig (.notSetting argument) := by
  rw [← exists_readSetting_iff, readSetting]
  cases splitSetting? argument with
  | none => simp [eq_comm]
  | some setting => simp

/-! ## §2. A list of arguments. -/

/-- Settings are read one by one, and put in one after another. -/
theorem readSettings_eq_ok_iff {arguments : List String} {config : Config} :
    readSettings arguments = .ok config ↔ ∃ pairs, arguments.map readSetting = pairs.map .ok
      ∧ config = Config.ofList pairs := by
  unfold readSettings
  constructor
  · intro h
    obtain ⟨pairs, hpairs, rfl⟩ := map_eq_ok h
    exact ⟨pairs, mapM_eq_ok_iff.1 hpairs, rfl⟩
  · rintro ⟨pairs, hpairs, rfl⟩
    rw [mapM_eq_ok_iff.2 hpairs]
    rfl

/-- **The first argument that is no setting is the one that is reported.** -/
theorem readSettings_eq_error_iff {arguments : List String} {cause : KeyError} :
    readSettings arguments = .error cause ↔ ∃ before argument after,
      arguments = before ++ argument :: after ∧ (∀ earlier ∈ before, IsSetting earlier)
      ∧ ¬ IsSetting argument ∧ cause = .invalidConfig (.notSetting argument) := by
  have hmap : readSettings arguments = .error cause
      ↔ arguments.mapM readSetting = .error cause := by
    unfold readSettings
    cases arguments.mapM readSetting <;> simp [Except.map]
  simp only [hmap, mapM_eq_error_iff, exists_readSetting_iff, readSetting_eq_error_iff]

/-- Arguments are read just if all of them are settings. -/
theorem exists_readSettings_iff {arguments : List String} :
    (∃ config, readSettings arguments = .ok config)
      ↔ ∀ argument ∈ arguments, IsSetting argument := by
  constructor
  · rintro ⟨config, h⟩ argument hmem
    obtain ⟨pairs, hpairs, -⟩ := readSettings_eq_ok_iff.1 h
    have hread : readSetting argument ∈ pairs.map .ok := by
      rw [← hpairs]
      exact List.mem_map_of_mem hmem
    obtain ⟨setting, -, hsetting⟩ := List.mem_map.1 hread
    exact exists_readSetting_iff.1 ⟨setting, hsetting.symm⟩
  · intro hall
    cases hread : readSettings arguments with
    | ok config => exact ⟨config, rfl⟩
    | error cause =>
        obtain ⟨before, argument, after, rfl, -, hnot, -⟩ := readSettings_eq_error_iff.1 hread
        exact absurd (hall argument (by simp)) hnot

/-- The last argument that sets a key is the one that counts. -/
theorem get?_readSettings {arguments : List String} {config : Config}
    (h : readSettings arguments = .ok config) (key value : String) :
    config.get? key = some value ↔ ∃ before argument after,
      arguments = before ++ argument :: after ∧ Sets argument key value
      ∧ ∀ later ∈ after, ∀ other, ¬ Sets later key other := by
  obtain ⟨pairs, hpairs, rfl⟩ := readSettings_eq_ok_iff.1 h
  rw [Config.get?_ofList_eq_some_iff]
  constructor
  · rintro ⟨front, back, rfl, hback⟩
    rw [List.map_append, List.map_cons, List.map_eq_append_iff] at hpairs
    obtain ⟨before, rest, rfl, -, hrest⟩ := hpairs
    obtain ⟨argument, after, rfl, hargument, hafter⟩ := List.map_eq_cons_iff.1 hrest
    refine ⟨before, argument, after, rfl, readSetting_eq_ok_iff.1 hargument, ?_⟩
    intro later hlater other hsets
    have hread : readSetting later ∈ back.map .ok := by
      rw [← hafter]
      exact List.mem_map_of_mem hlater
    rw [readSetting_eq_ok_iff.2 hsets] at hread
    obtain ⟨p, hp, heq⟩ := List.mem_map.1 hread
    cases heq
    exact hback _ hp rfl
  · rintro ⟨before, argument, after, rfl, hsets, hafter⟩
    rw [List.map_append, List.map_cons, eq_comm, List.map_eq_append_iff] at hpairs
    obtain ⟨front, rest, rfl, -, hrest⟩ := hpairs
    obtain ⟨p, back, rfl, hp, hback⟩ := List.map_eq_cons_iff.1 hrest
    rw [readSetting_eq_ok_iff.2 hsets] at hp
    cases hp
    refine ⟨front, back, rfl, fun p hp heq => ?_⟩
    have hread : Except.ok p ∈ after.map readSetting := by
      rw [← hback]
      exact List.mem_map_of_mem hp
    obtain ⟨later, hlater, hsetting⟩ := List.mem_map.1 hread
    obtain ⟨k, v⟩ := p
    obtain rfl : k = key := heq
    exact hafter later hlater v (readSetting_eq_ok_iff.1 hsetting)

/-! ## §3. Adding a plugin key. -/

/-- A key of a plugin is asked for: the plugin and the id are given, and no pair of files is. -/
structure AddRequest.IsPlugin (a : AddRequest) : Prop where
  plugin : a.plugin.isSome = true
  id : a.id.isSome = true
  unpaired : a.key = none ∨ a.cert = none

/-- The settings are read before the store is asked. -/
theorem AddRequest.IsPlugin.request_eq_error {a : AddRequest} (h : a.IsPlugin) {cause : KeyError}
    (hsettings : readSettings a.pluginConfig = .error cause) (fs : FileSystem) :
    (Action.add a).request fs = .error cause := by
  obtain ⟨plugin, hplugin⟩ := Option.isSome_iff_exists.1 h.plugin
  obtain ⟨id, hid⟩ := Option.isSome_iff_exists.1 h.id
  unfold Action.request
  dsimp only
  split
  · next key cert hkey hcert =>
    rcases h.unpaired with hnone | hnone
    · rw [hkey] at hnone
      cases hnone
    · rw [hcert] at hnone
      cases hnone
  · rw [hsettings]
    rfl
  · next hno => exact absurd hid (hno plugin id hplugin)

/-- **What is made of settings that are given as arguments.**  They are read just if all are
settings.  The keys that are set are mapped to the values in the last arguments that set them, and
nothing else is mapped.  Otherwise the first that is no setting is reported; then a plugin key is
not added, whatever is stored, and everything stays as it is. -/
theorem settings_given (arguments : List String) :
    ((∃ config, readSettings arguments = .ok config)
        ↔ ∀ argument ∈ arguments, IsSetting argument)
    ∧ (∀ config, readSettings arguments = .ok config → ∀ key value,
        config.get? key = some value ↔ ∃ before argument after,
          arguments = before ++ argument :: after ∧ Sets argument key value
          ∧ ∀ later ∈ after, ∀ other, ¬ Sets later key other)
    ∧ (∀ cause, readSettings arguments = .error cause ↔ ∃ before argument after,
        arguments = before ++ argument :: after ∧ (∀ earlier ∈ before, IsSetting earlier)
        ∧ ¬ IsSetting argument ∧ cause = .invalidConfig (.notSetting argument)
        ∧ cause.message = "Invalid configuration: "
          ++ ("invalid --plugin-config '" ++ argument ++ "', expected KEY=VALUE"))
    ∧ ∀ {a : AddRequest} {cause : KeyError}, a.IsPlugin → a.pluginConfig = arguments →
        readSettings arguments = .error cause →
        (∀ (s : Store) (fs : FileSystem), runOn (execute s (.add a)) fs = (.error cause, fs))
        ∧ ∀ {e : Environment} {commandLine : List Bytes} {invocation : Invocation} {folder : Path},
            interpret commandLine e.configDir = .ok invocation → invocation.action = .add a →
            e.configFolder invocation.configDir = .ok folder → ∀ fs,
              outcome e commandLine fs
                = (⟨1, "", Terminal.failure e.wantsColor cause.message⟩, fs) := by
  refine ⟨exists_readSettings_iff, fun config => get?_readSettings, fun cause => ?_, ?_⟩
  · rw [readSettings_eq_error_iff]
    constructor
    · rintro ⟨before, argument, after, hsplit, hbefore, hnot, rfl⟩
      exact ⟨before, argument, after, hsplit, hbefore, hnot, rfl, rfl⟩
    · rintro ⟨before, argument, after, hsplit, hbefore, hnot, hcause, -⟩
      exact ⟨before, argument, after, hsplit, hbefore, hnot, hcause⟩
  · rintro a cause hplugin rfl hsettings
    have hrequest := hplugin.request_eq_error hsettings
    refine ⟨fun s fs => ?_, fun hread hadd hfolder fs => ?_⟩
    · rw [execute_run, hrequest fs]
    · rw [outcome_of_folder hread hfolder, hadd, hrequest fs]
      rfl

/-- Three arguments, of which the second has a blank key and the third none. -/
def unfitSettings : List String := ["a=1", " =x", "b"]

/-- A plugin key to be added with them. -/
def unfitRequest : AddRequest :=
  ⟨"n", none, none, some "p", some "i", unfitSettings, false⟩

/-- The arguments for this. -/
def unfitArguments : List Bytes :=
  ["--config-dir", "d", "keys", "add", "n", "--plugin", "p", "--id", "i", "--plugin-config", "a=1",
    "--plugin-config", " =x", "--plugin-config", "b"].map Bytes.ofString

/-- A document that breaks off at once. -/
def brokenHome : FileSystem := homeWith (Bytes.ofString "\x7b")

/-- **A blank key is reported where the document could not even be read.** -/
theorem blankKey_reported :
    unfitRequest.IsPlugin
      ∧ readSettings unfitSettings = .error (.invalidConfig (.notSetting " =x"))
      ∧ (runOn (Store.inFolder (.ofString "d")).load brokenHome).1
        = .error (.malformedDocument (.ofString "d/signingkeys.json") ⟨.endInObject, ⟨1, 1⟩⟩)
      ∧ outcome bareEnvironment unfitArguments brokenHome
        = (⟨1, "", "  ✗ Error: Invalid configuration: invalid --plugin-config ' =x', "
            ++ "expected KEY=VALUE\n"⟩, brokenHome) := by
  have hread : interpret unfitArguments none = .ok ⟨some (.ofString "d"), .add unfitRequest⟩ := by
    decide +kernel
  have hplugin : unfitRequest.IsPlugin := ⟨rfl, rfl, .inl rfl⟩
  have hsettings : readSettings unfitSettings = .error (.invalidConfig (.notSetting " =x")) := by
    decide +kernel
  obtain ⟨-, -, -, hadd⟩ := settings_given unfitSettings
  have hrun := (hadd hplugin rfl hsettings).2 (e := bareEnvironment) hread rfl rfl brokenHome
  refine ⟨hplugin, hsettings, by decide +kernel, ?_⟩
  rw [hrun]
  rfl

end Keyring.Command
