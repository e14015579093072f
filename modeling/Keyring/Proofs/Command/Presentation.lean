/-
  Keyring.Proofs.Command.Presentation
  ────────────────────────────────
  **WHAT IS SHOWN OF A PLUGIN KEY CAN BE GIVEN AGAIN.**

  The settings of a plugin key are shown as `KEY=VALUE`, each on a line of
  its own.  A key that was read from arguments is trimmed, not blank and
  without an equals sign, so each of these texts sets just what it shows,
  whatever stands in the value.  As no two have one key, their order does
  not count.  Saving and loading keep every key and value as they are.

      IsKey      — what can stand in front of the equals sign, and is kept
      settingsIn — the settings in a report

  Main results:
    * `readSettings_of_perm` — settings written out are read back in any
      order;
    * `shown_settings_give_back` — before they are stored, and after.
-/
import Keyring.Proofs.Command.Settings
import Keyring.Proofs.Registry.History
import Keyring.Proofs.Store.Loadable

namespace Keyring.Command

open Terminal (Line)
open Text (isBlank trim)

/-! ## §1. Settings written out. -/

/-- The key is found again in front of an equals sign. -/
structure IsKey (key : String) : Prop where
  trimmed : trim key = key
  whole : '=' ∉ key.toList
  solid : isBlank key = false

/-- What an argument sets is a key of this kind. -/
theorem Sets.isKey {argument key value : String} (h : Sets argument key value) : IsKey key := by
  obtain ⟨front, hcut, hsolid, rfl⟩ := h
  refine ⟨Text.trim_trim front, fun hmem => hcut.first ?_, ?_⟩
  · rw [trim, String.toList_ofList] at hmem
    exact Text.mem_of_mem_trimChars hmem
  · rw [Bool.eq_false_iff, ne_eq, ← Text.trim_eq_empty_iff, Text.trim_trim,
      Text.trim_eq_empty_iff, hsolid]
    exact Bool.false_ne_true

/-- A setting that is written out sets what it was. -/
theorem IsKey.sets {key : String} (h : IsKey key) (value : String) :
    Sets (writeSetting (key, value)) key value :=
  ⟨key, ⟨rfl, h.whole⟩, h.solid, h.trimmed⟩

/-- The keys of settings that were read. -/
theorem isKey_of_readSettings {arguments : List String} {config : Config}
    (h : readSettings arguments = .ok config) {p : Setting} (hp : p ∈ config.toList) :
    IsKey p.1 := by
  have hget : config.get? p.1 = some p.2 := (config.get?_eq_some_iff p.1 p.2).2 hp
  obtain ⟨before, argument, after, -, hsets, -⟩ := (get?_readSettings h p.1 p.2).1 hget
  exact hsets.isKey

/-- **Settings that are written out are read back, in any order.** -/
theorem readSettings_of_perm {config : Config} (hkeys : ∀ p ∈ config.toList, IsKey p.1)
    {shown : List String} (hshown : shown.Perm (config.toList.map writeSetting)) :
    readSettings shown = .ok config := by
  have hread : (config.toList.map writeSetting).map readSetting = config.toList.map .ok := by
    rw [List.map_map]
    refine List.map_congr_left fun p hp => ?_
    exact readSetting_eq_ok_iff.2 ((hkeys p hp).sets p.2)
  obtain ⟨config', hconfig'⟩ : ∃ config', readSettings shown = .ok config' := by
    rw [exists_readSettings_iff]
    intro argument hmem
    obtain ⟨p, hp, rfl⟩ := List.mem_map.1 (hshown.mem_iff.1 hmem)
    exact isSetting_iff.2 ⟨p.1, p.2, (hkeys p hp).sets p.2⟩
  obtain ⟨pairs, hpairs, rfl⟩ := readSettings_eq_ok_iff.1 hconfig'
  -- what is read of the texts in their order is the pairs in some order
  have hperm : (pairs.map Except.ok).Perm (config.toList.map (Except.ok (ε := KeyError))) := by
    rw [← hpairs, ← hread]
    exact hshown.map readSetting
  have hinj : Function.Injective (Except.ok : Setting → Except KeyError Setting) :=
    fun _ _ heq => Except.ok.inj heq
  rw [hconfig', Config.ofList_of_perm ((List.map_perm_map_iff hinj).1 hperm)]

/-! ## §2. Settings that are shown. -/

/-- The settings in a report, as they can be given. -/
def settingsIn (lines : List Line) : List String :=
  lines.filterMap fun
    | .field "Config" shown => some shown
    | _ => none

/-- A plugin key is shown with all its settings. -/
theorem settingsIn_presentation (name : String) (key : PluginKey) :
    settingsIn (presentation ⟨name, .pluginKey key⟩) = key.config.toList.map writeSetting := by
  unfold presentation settingsIn
  dsimp only
  rw [List.cons_append, List.cons_append, List.cons_append, List.nil_append]
  show List.filterMap _ (key.config.toList.map _) = _
  rw [List.filterMap_map]
  exact congrFun List.filterMap_eq_map _

/-! ## §3. Settings that are stored. -/

variable {s : Store} {fs after : FileSystem} {r : Registry}

/-- A plugin key that was added stands in the registry that was saved. -/
theorem saved_of_addPluginKey {cancelled makeDefault : Bool} {name : String} {key : PluginKey}
    (h : runOn (s.addPluginKey cancelled name key makeDefault) fs = (.ok r, after)) :
    r.Sound ∧ isBlank name = false ∧ ⟨name, .pluginKey key⟩ ∈ r.entries
      ∧ runOn (s.save r) fs = (.ok (), after) := by
  have hserve : runOn (s.serve (.addPluginKey cancelled name key makeDefault)) fs
      = (.ok (.registry r), after) := by
    show runOn (s.addPluginKey cancelled name key makeDefault
      >>= fun r => pure (Answer.registry r)) fs = _
    rw [runOn_bind, h]
    rfl
  obtain ⟨old, changed, hload, hanswer, hsave⟩ := serve_change_eq_ok rfl hserve
  have hsound := (sound_of_loaded hload).respond hanswer
  obtain ⟨next, hadd, hrest⟩ := bind_eq_ok hanswer
  cases hrest
  obtain ⟨-, named, -, -, rfl⟩ := Registry.addPlugin_cases hadd
  exact ⟨hsound, named, List.mem_append_right _ List.mem_cons_self, hsave⟩

/-- **What is shown of settings can be given again.**  Whatever arguments they were read from, each
of them written out, in any order, they are read as the same settings.  This is so before they are
stored and whenever they are found again: a key that was added is loaded just if the path of the
document is clear, and what is shown of it then gives the settings that it was added with. -/
theorem shown_settings_give_back {arguments : List String} {config : Config}
    (h : readSettings arguments = .ok config) :
    (∀ shown : List String, shown.Perm (config.toList.map writeSetting) →
      readSettings shown = .ok config)
    ∧ ∀ {s : Store} {fs after : FileSystem} {cancelled makeDefault : Bool}
        {name id plugin : String} {r : Registry},
      runOn (s.addPluginKey cancelled name ⟨id, plugin, config⟩ makeDefault) fs = (.ok r, after) →
      ((runOn s.load after).1 = .ok r ↔ s.IsClear fs)
      ∧ (s.IsClear fs → (runOn (s.resolveKey (some name)) after).1
          = .ok ⟨name, .pluginKey ⟨id, plugin, config⟩⟩)
      ∧ ∀ asked found, (runOn (s.resolveKey asked) after).1 = .ok found → found.name = name →
          found.material = .pluginKey ⟨id, plugin, config⟩
          ∧ runOn (execute s (.present asked)) after = (.ok (presentation found), after)
          ∧ ∀ shown : List String, shown.Perm (settingsIn (presentation found)) →
              readSettings shown = .ok config := by
  have hback : ∀ shown : List String, shown.Perm (config.toList.map writeSetting) →
      readSettings shown = .ok config :=
    fun shown hshown => readSettings_of_perm (fun p => isKey_of_readSettings h) hshown
  refine ⟨hback, ?_⟩
  intro s fs after cancelled makeDefault name id plugin r hadd
  obtain ⟨hsound, named, hmem, hsave⟩ := saved_of_addPluginKey hadd
  have hload := loaded_after_save_iff hsound hsave
  refine ⟨?_, fun hclear => ?_, fun asked found hfound hname => ?_⟩
  · rw [load_run]
    exact hload
  · rw [resolveKey_run, hload.2 hclear, ok_bind]
    exact (Registry.get_eq_ok_iff hsound.distinct named _).2 ⟨hmem, rfl⟩
  · rw [resolveKey_run] at hfound
    obtain ⟨loaded, hloaded, hresolve⟩ := bind_eq_ok hfound
    -- on a path that is not clear nothing would have been found
    have hclear : s.IsClear fs := by
      by_contra hblind
      rw [loaded_after_blind_save hblind hsave] at hloaded
      cases hloaded
    obtain rfl : r = loaded := Except.ok.inj ((hload.2 hclear).symm.trans hloaded)
    obtain rfl : found = ⟨name, .pluginKey ⟨id, plugin, config⟩⟩ :=
      List.inj_on_of_nodup_map hsound.distinct (Registry.mem_of_resolve hresolve) hmem hname
    refine ⟨rfl, ?_, fun shown hshown => hback shown ?_⟩
    · rw [execute_run]
      show served s (.resolveKey asked) after = _
      rw [served_present hloaded, hresolve]
      rfl
    · rwa [settingsIn_presentation] at hshown

/-- Arguments that set one key twice; there are white space around a key, and a space and an equals
sign in values. -/
def paddedSettings : List String := ["b=2", " a =x=y", "b= 3"]

/-- What they set. -/
def paddedConfig : Config := .ofList [("b", " 3"), ("a", "x=y")]

/-- The settings last first, a key with them in an empty folder, and what is shown of it. -/
theorem paddedSettings_given_back :
    readSettings paddedSettings = .ok paddedConfig
      ∧ readSettings ["b= 3", "a=x=y"] = .ok paddedConfig
      ∧ ∃ after, runOn (plainStore.addPluginKey false "n" ⟨"i", "p", paddedConfig⟩ false) bareTree
          = (.ok ⟨some "n", [⟨"n", .pluginKey ⟨"i", "p", paddedConfig⟩⟩]⟩, after)
        ∧ ∃ lines, runOn (execute plainStore (.present (some "n"))) after = (.ok lines, after)
          ∧ readSettings (settingsIn lines).reverse = .ok paddedConfig := by
  have hread : readSettings paddedSettings = .ok paddedConfig := by decide +kernel
  obtain ⟨hback, hstored⟩ := shown_settings_give_back hread
  have hadd : (runOn (plainStore.addPluginKey false "n" ⟨"i", "p", paddedConfig⟩ false) bareTree).1
      = .ok ⟨some "n", [⟨"n", .pluginKey ⟨"i", "p", paddedConfig⟩⟩]⟩ := by decide +kernel
  obtain ⟨-, hfound, hshown⟩ := hstored (Prod.ext hadd rfl)
  obtain ⟨-, hpresent, hagain⟩ := hshown (some "n") _ (hfound plainStore_isClear) rfl
  exact ⟨hread, hback _ (List.Perm.swap ..), _, Prod.ext hadd rfl, _, hpresent,
    hagain _ (List.reverse_perm _)⟩

end Keyring.Command
