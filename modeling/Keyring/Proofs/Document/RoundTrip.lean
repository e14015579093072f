/-
  Keyring.Proofs.Document.RoundTrip
  ────────────────────────────────
  **PRINTING AND READING CANCEL.**

  A registry whose plugin keys have an id and a plugin name is printed as a
  document that is read as that same registry: the same default, the same
  entries in the same order, the same material and settings.  Nothing is
  asked of its names or of its default.  And reading gives no other
  registries than these, so what has been read once can be printed and read
  again without end.

  Main results:
    * `takes_registry` — the printed registry is read, whatever follows;
    * `isUsable_of_parse` — what is read can be printed and read again;
    * `parse_print_roundTrip` — both, for whole documents.
-/
import Keyring.Proofs.Document.Keeping
import Keyring.Proofs.Document.Layout
import Keyring.Proofs.Registry.Rules

namespace Keyring

open Text (isBlank)

/-! ## §1. Settings come back in their order. -/

/-- A key above all others goes to the end. -/
theorem insertSetting_of_forall_lt {key : String} (value : String) :
    ∀ {pairs : List Setting}, (∀ p ∈ pairs, p.1 < key) →
      insertSetting key value pairs = pairs ++ [(key, value)]
  | [], _ => rfl
  | (k, v) :: rest, h => by
      have hk : k < key := h (k, v) List.mem_cons_self
      rw [insertSetting, if_neg (String.lt_asymm hk), if_neg (fun heq => ?_),
        insertSetting_of_forall_lt value fun p hp => h p (List.mem_cons_of_mem _ hp)]
      · rfl
      · rw [heq] at hk
        exact String.lt_irrefl k hk

namespace Document

open Reader

theorem takes_setting (config : Config) (key value : String) :
    Takes (setting config key) (':' :: ' ' :: written value) (config.insert key value) := by
  have hvalue := (takes_string_space value).map (config.insert key)
  exact ⟨hvalue.reads, .cons ⟨.endInObject, rfl, rfl⟩ hvalue.starved⟩

/-- The settings above those already read are read in their order. -/
theorem taken_settings (later : List Setting) :
    ∀ before after : Config, after.pairs = before.pairs ++ later →
      Taken setting before (later.map fun p => (p.1, written p.2)) after := by
  induction later with
  | nil =>
      intro before after h
      have : after = before := Config.ext (h.trans (List.append_nil _))
      rw [this]
      exact .nil before
  | cons p later ih =>
      intro before after h
      obtain ⟨key, value⟩ := p
      -- the settings are written in ascending order, so that each one goes in at the end
      have hlt : ∀ p ∈ before.pairs, p.1 < key := by
        intro p hp
        have hascending : Ascending (before.pairs ++ (key, value) :: later) := h ▸ after.ascending
        exact (List.pairwise_append.1 hascending).2.2 p hp (key, value) List.mem_cons_self
      refine .cons (takes_setting before key value) (ih (before.insert key value) after ?_)
      rw [h, show (before.insert key value).pairs = before.pairs ++ [(key, value)] from
        insertSetting_of_forall_lt value hlt, List.append_assoc]
      rfl

theorem takes_pluginConfig (config : Config) (depth : Nat) :
    Takes pluginConfig (' ' :: writtenConfig depth config) config := by
  obtain ⟨hreads, hstarved⟩ := (takesMembers_inside
    (taken_settings config.pairs Config.empty config rfl) depth).whole
  have hcontents := takes_enclosed .curly hreads hstarved
  refine Takes.behindSpace ?_ ?_ fun _ => rfl
  · rw [writtenConfig, writtenObject, block_eq, Config.toList]
    exact ⟨hcontents.reads, .cons ⟨.endInValue, rfl, rfl⟩ hcontents.starved⟩
  · rw [writtenConfig, writtenObject, block_eq]
    exact List.cons_ne_nil _ _

/-! ## §2. Key pairs, plugin keys and entries. -/

theorem takes_keyPair (pair : KeyPair) (depth : Nat) :
    Takes keyPair.read (writtenKeyPair depth pair) pair := by
  have taken : Taken keyPair.member keyPair.draft
      [("keyPath", written pair.keyPath), ("certificatePath", written pair.certificatePath)]
      ⟨some pair.keyPath, some pair.certificatePath⟩ :=
    .cons (Record.takes_member rfl rfl ((takes_string_space pair.keyPath).map _))
      (.cons (Record.takes_member rfl rfl ((takes_string_space pair.certificatePath).map _))
        (.nil _))
  exact Record.takes_printed taken rfl depth

/-- A configuration without settings is left out, and none is read for it. -/
theorem takes_pluginKey (key : PluginKey) (depth : Nat) :
    Takes pluginKey.read (writtenPluginKey depth key) key := by
  have hid := (Record.takes_member rfl rfl ((takes_string_space key.id).map _) :
    Takes (pluginKey.member ⟨none, none, none⟩ "id") _ ⟨some key.id, none, none⟩)
  have hname := (Record.takes_member rfl rfl ((takes_string_space key.pluginName).map _) :
    Takes (pluginKey.member ⟨some key.id, none, none⟩ "pluginName") _
      ⟨some key.id, some key.pluginName, none⟩)
  unfold writtenPluginKey
  by_cases hempty : key.config.isEmpty = true
  -- the member is left out, and completing the draft fills in an empty configuration
  · have hconfig : key.config = Config.empty := Config.ext (List.isEmpty_iff.1 hempty)
    rw [if_pos hempty]
    refine Record.takes_printed (.cons hid (.cons hname (.nil _))) ?_ depth
    show Except.ok (⟨key.id, key.pluginName, Config.empty⟩ : PluginKey) = _
    rw [← hconfig]
  · have hconfig := (Record.takes_member rfl rfl
      ((takes_pluginConfig key.config (depth + 1)).map _) :
      Takes (pluginKey.member ⟨some key.id, some key.pluginName, none⟩ "pluginConfig") _
        ⟨some key.id, some key.pluginName, some key.config⟩)
    rw [if_neg hempty]
    exact Record.takes_printed (.cons hid (.cons hname (.cons hconfig (.nil _)))) rfl depth

/-- A value that begins with neither white space nor an `n` is read where `null` may stand. -/
theorem takes_nullable {reader : Reader α} {c : Char} {text : List Char} {x : α}
    (h : Takes reader (c :: text) x) (hspace : isSpace c = false) (hnull : c ≠ 'n') :
    Takes (nullable reader) (' ' :: c :: text) (some x) := by
  have hvalue := h.map some
  have hturn : ∀ rest, nullable reader (c :: rest)
      = (reader >>= fun x => pure (some x)) (c :: rest) := by
    intro rest
    rw [nullable, dropSpace_cons hspace]
    split
    · next heq => exact absurd (List.cons.inj heq).1 hnull
    · rfl
  refine Takes.behindSpace ⟨fun rest => (hturn _).trans (hvalue.reads rest), .cons ?_ ?_⟩
    (List.cons_ne_nil _ _) fun _ => rfl
  · exact hvalue.starved [] (c :: text) rfl (List.cons_ne_nil _ _)
  · intro front back htext hback
    show (nullable reader (c :: front)).TooShort
    rw [hturn]
    exact hvalue.starved (c :: front) back (by rw [htext]; rfl) hback

/-- The raw form of an entry has its material in one of the two places, and is refused for it
only where it cannot be used. -/
theorem takes_rawEntry (entry : Entry) (depth : Nat) :
    ∃ raw : RawEntry, raw.name = entry.name
      ∧ (entry.material.IsUsable → raw.material = .ok entry.material)
      ∧ (¬ entry.material.IsUsable → ∃ unfit, raw.material = .error unfit)
      ∧ Takes rawEntry.read (writtenEntry depth entry) raw := by
  obtain ⟨name, material⟩ := entry
  have hname := (Record.takes_member rfl rfl ((takes_string_space name).map _) :
    Takes (rawEntry.member ⟨none, none, none⟩ "name") _ ⟨some name, none, none⟩)
  cases material with
  | keyPair pair =>
      have hpair := (Record.takes_member rfl rfl
          ((takes_nullable (takes_keyPair pair (depth + 1)) rfl (by decide)).map _) :
        Takes (rawEntry.member ⟨some name, none, none⟩ "x509KeyPair") _
          ⟨some name, some (some pair), none⟩)
      refine ⟨⟨name, some pair, none⟩, rfl, fun _ => rfl, fun h => absurd trivial h, ?_⟩
      exact Record.takes_printed (.cons hname (.cons hpair (.nil _))) rfl depth
  | pluginKey key =>
      have hkey := (Record.takes_member rfl rfl
          ((takes_nullable (takes_pluginKey key (depth + 1)) rfl (by decide)).map _) :
        Takes (rawEntry.member ⟨some name, none, none⟩ "externalKey") _
          ⟨some name, none, some (some key)⟩)
      have hchecks : (⟨name, none, some key⟩ : RawEntry).material
          = if isBlank key.id = true then .error .blankId
            else if isBlank key.pluginName = true then .error .blankPluginName
            else .ok (.pluginKey key) := rfl
      refine ⟨⟨name, none, some key⟩, rfl, ?_, ?_, ?_⟩
      -- what is not blank passes the two checks on the raw form
      · rintro ⟨hid, hplugin⟩
        rw [hchecks, if_neg (by simp [hid]), if_neg (by simp [hplugin])]
      · intro hblank
        rw [hchecks]
        by_cases hid : isBlank key.id = true
        · exact ⟨.blankId, if_pos hid⟩
        · have hplugin : isBlank key.pluginName = true := by
            rw [← Bool.not_eq_false]
            exact fun hplugin => hblank ⟨by simpa using hid, hplugin⟩
          exact ⟨.blankPluginName, (if_neg hid).trans (if_pos hplugin)⟩
      · exact Record.takes_printed (.cons hname (.cons hkey (.nil _))) rfl depth

theorem takes_entry {e : Entry} (h : e.material.IsUsable) (depth : Nat) :
    Takes entry (writtenEntry depth e) e := by
  obtain ⟨raw, hname, hmaterial, -, hread⟩ := takes_rawEntry e depth
  have hentry : Takes entry (writtenEntry depth e ++ []) e := by
    refine hread.bind ?_
    rw [hmaterial h, hname]
    exact takes_pure e
  rwa [List.append_nil] at hentry

/-! ## §3. Whole registries. -/

theorem takes_entries {xs : List Entry} (h : ∀ e ∈ xs, e.material.IsUsable) (depth : Nat) :
    Takes entries (' ' :: writtenArray depth (xs.map (writtenEntry (depth + 1)))) xs := by
  obtain ⟨hreads, hstarved⟩ := (takesElements_inside
    (fun e he => takes_entry (h e he) (depth + 1)) (fun e => ⟨_, rfl⟩) depth).whole
  have hcontents := takes_enclosed .square hreads hstarved
  rw [writtenArray, block_eq]
  refine Takes.behindSpace ?_ (List.cons_ne_nil _ _) fun _ => rfl
  exact ⟨hcontents.reads, .cons ⟨.endInValue, rfl, rfl⟩ hcontents.starved⟩

/-- **A printed registry is read as itself, whatever follows, and not before its end.** -/
theorem takes_registry {r : Registry} (h : r.IsUsable) : Takes registry.read (printed r) r := by
  obtain ⟨defaultName, xs⟩ := r
  cases defaultName with
  | none =>
      have hentries := (Record.takes_member rfl rfl ((takes_entries h 1).map _) :
        Takes (registry.member ⟨none, none⟩ "keys") _ ⟨none, some xs⟩)
      exact Record.takes_printed (.cons hentries (.nil _)) rfl 0
  | some name =>
      have hdefault := (Record.takes_member rfl rfl
          ((takes_nullable (takes_string name) rfl (by decide)).map _) :
        Takes (registry.member ⟨none, none⟩ "default") _ ⟨some (some name), none⟩)
      have hentries := (Record.takes_member rfl rfl ((takes_entries h 1).map _) :
        Takes (registry.member ⟨some (some name), none⟩ "keys") _ ⟨some (some name), some xs⟩)
      exact Record.takes_printed (.cons hdefault (.cons hentries (.nil _))) rfl 0

/-- White space may follow a document. -/
theorem parse_print_append {r : Registry} (h : r.IsUsable) (s : String)
    (hspace : dropSpace s.toList = []) : parse (print r ++ s) = .ok r := by
  have hend : space s.toList = .ok () [] := by rw [space, hspace]
  have hdocument : document (print r ++ s).toList = .ok r [] := by
    rw [String.toList_append, print, String.toList_ofList, document,
      bind_eq_of_ok ((takes_registry h).reads s.toList)]
    exact bind_eq_of_ok hend _
  rw [parse, hdocument]

/-! ## §4. What is read can be printed. -/

theorem yields_entry : Yields entry fun e => e.material.IsUsable := by
  refine (yields_true rawEntry.read).bind fun raw _ => ?_
  cases h : raw.material with
  | error unfit => exact yields_reject _ _
  | ok material =>
      refine yields_pure ?_
      show material.IsUsable
      -- none, both, a key pair alone, a plugin key alone
      unfold RawEntry.material at h
      split at h
      · cases h
      · cases h
      · cases h
        trivial
      · split at h
        · cases h
        split at h
        · cases h
        next hid hplugin =>
        cases h
        exact ⟨by simpa using hid, by simpa using hplugin⟩

theorem yields_entries : Yields entries fun xs => ∀ e ∈ xs, e.material.IsUsable := by
  have hloop : Yields (elements entry) fun xs => ∀ e ∈ xs, e.material.IsUsable :=
    fun text => yields_entry.elementsUpTo text true text
  intro text y rest hy
  unfold entries at hy
  split at hy
  · exact hloop.enclosed .square _ y rest hy
  · exact yields_wrongType "a sequence" (fun xs => ∀ e ∈ xs, e.material.IsUsable) _ y rest hy

/-- **Whatever is read has usable material throughout.** -/
theorem yields_registry : Yields registry.read Registry.IsUsable := by
  -- the draft keeps the entries that have been read, each of them usable
  refine Record.yields_read (P := fun d => ∀ xs, d.entries = some xs → ∀ e ∈ xs,
    e.material.IsUsable) ?_ ?_ ?_
  · intro xs hxs
    cases hxs
  · intro field hfield state hstate
    simp only [registry, List.mem_cons, List.not_mem_nil, or_false] at hfield
    rcases hfield with rfl | rfl
    · exact (yields_true (nullable string)).bind fun name _ => yields_pure hstate
    · refine yields_entries.bind fun xs hxs => yields_pure ?_
      intro ys hys
      cases hys
      exact hxs
  · rintro ⟨defaultName, given⟩ r hstate hr
    cases hr
    cases given with
    | none => intro e he; cases he
    | some xs => exact hstate xs rfl

theorem isUsable_of_parse {text : String} {r : Registry} (h : parse text = .ok r) :
    r.IsUsable := by
  have hdocument : Yields document Registry.IsUsable := by
    refine yields_registry.bind fun r hr => ?_
    refine (yields_true space).bind fun _ _ text y rest hy => ?_
    -- what follows the document does not change it
    split at hy
    · cases hy
      exact hr
    · cases hy
  unfold parse at h
  split at h
  · next r' rest hread =>
    cases h
    exact hdocument text.toList r rest hread
  · cases h
  · cases h

/-! ## §5. The round trip. -/

/-- **Printing and reading cancel.**  A registry with usable material is read back from its
document, with or without a line break at the end; every registry that is read is one of these,
and so is read again from its own document, which it prints once more. -/
theorem parse_print_roundTrip :
    (∀ r : Registry, r.IsUsable →
      parse (print r) = .ok r ∧ parse (print r ++ "\n") = .ok r)
    ∧ ∀ (text : String) (r : Registry), parse text = .ok r →
      r.IsUsable ∧ parse (print r) = .ok r ∧ (parse (print r)).map print = .ok (print r) := by
  have hprint : ∀ r : Registry, r.IsUsable → parse (print r) = .ok r := by
    intro r h
    rw [← String.append_empty (s := print r)]
    exact parse_print_append h "" rfl
  refine ⟨fun r h => ⟨hprint r h, parse_print_append h "\n" rfl⟩, fun text r h => ?_⟩
  have husable := isUsable_of_parse h
  refine ⟨husable, hprint r husable, ?_⟩
  rw [hprint r husable]
  rfl

/-- A registry that breaks two rules and whose texts hold characters of every kind. -/
def oddRegistry : Registry where
  defaultName := some "no such \"name\"\x7f"
  entries := [
    ⟨"", .keyPair ⟨"C:\\keys\\\u00e9.key", "\x00\x08\x0c\n\r\t\x1f"⟩⟩,
    ⟨"", .pluginKey ⟨"\u2028/", "😀", (Config.empty.insert "b" "]\x7d").insert "a" ""⟩⟩]

theorem parse_print_oddRegistry :
    oddRegistry.IsUsable ∧ parse (print oddRegistry) = .ok oddRegistry
      ∧ parse (print oddRegistry ++ "\n") = .ok oddRegistry
      ∧ (parse (print oddRegistry)).map print = .ok (print oddRegistry) := by
  have husable : oddRegistry.IsUsable := by
    intro e he
    simp only [oddRegistry, List.mem_cons, List.not_mem_nil, or_false] at he
    rcases he with rfl | rfl
    · trivial
    · exact ⟨by decide, by decide⟩
  have hread := parse_print_roundTrip.1 oddRegistry husable
  exact ⟨husable, hread.1, hread.2, (parse_print_roundTrip.2 _ _ hread.1).2.2⟩

end Document

end Keyring
