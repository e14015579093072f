/-
  Keyring.Proofs.Document.Acceptance
  ────────────────────────────────
  **WHICH TEXTS ARE ACCEPTED, AND AS WHAT.**

  The reader of documents takes a text exactly if it is one JSON value,
  with white space around it, that `registry?` makes a registry of; and
  then it gives that registry.  For each record it remains to say how its
  draft is told by the fields given: a field adds its own value and leaves
  the others as they are.

  Main results:
    * `decodes_registry` — the reader of a registry against `registry?`;
    * `parse_eq_ok_iff` — whole documents.
-/
import Keyring.Proofs.Document.Fields

namespace Keyring.Document

open Reader

/-! ## §1. Key pairs. -/

/-- The draft of a key pair. -/
def keyPairDraft? (given : Given) : Option KeyPairDraft := do
  return ⟨← field? given "keyPath" Json.text?, ← field? given "certificatePath" Json.text?⟩

theorem keyPairDraft?_eq_some {given : Given} {d : KeyPairDraft} :
    keyPairDraft? given = some d ↔ field? given "keyPath" Json.text? = some d.keyPath
      ∧ field? given "certificatePath" Json.text? = some d.certificatePath := by
  obtain ⟨keyPath, certificatePath⟩ := d
  simp [keyPairDraft?, Option.bind_eq_some_iff]

theorem follows_keyPair : keyPair.Follows keyPairDraft? where
  start := rfl
  distinct := by decide
  isGiven := by
    intro given d hd field hfield
    obtain ⟨hkey, hcertificate⟩ := keyPairDraft?_eq_some.1 hd
    simp only [keyPair, List.mem_cons, List.not_mem_nil, or_false] at hfield
    rcases hfield with rfl | rfl
    · exact isSome_field? hkey
    · exact isSome_field? hcertificate
  read := by
    intro given d hd field hfield hnew
    obtain ⟨hkey, hcertificate⟩ := keyPairDraft?_eq_some.1 hd
    simp only [keyPair, List.mem_cons, List.not_mem_nil, or_false] at hfield
    rcases hfield with rfl | rfl
    · refine (decodes_string.map _).congr fun v => ?_
      rw [keyPairDraft?, field?_concat_self hnew, field?_concat_of_ne given (by decide),
        hcertificate]
      cases v.text? <;> rfl
    · refine (decodes_string.map _).congr fun v => ?_
      rw [keyPairDraft?, field?_concat_self hnew, field?_concat_of_ne given (by decide), hkey]
      cases v.text? <;> rfl
  before := by
    intro given more d hd
    obtain ⟨hkey, hcertificate⟩ := keyPairDraft?_eq_some.1 hd
    obtain ⟨keyPath, hkey⟩ := field?_of_append hkey
    obtain ⟨certificatePath, hcertificate⟩ := field?_of_append hcertificate
    exact ⟨⟨keyPath, certificatePath⟩, keyPairDraft?_eq_some.2 ⟨hkey, hcertificate⟩⟩

theorem decodes_keyPair : Decodes keyPair.read keyPair? := by
  refine follows_keyPair.decodes_read.congr fun v => ?_
  show ((v.given? ["keyPath", "certificatePath"]).bind fun given =>
    (keyPairDraft? given).bind keyPair.finish) = keyPair? v
  unfold keyPair?
  congr 1
  funext given
  rw [required?_eq_bind, required?_eq_bind, keyPairDraft?]
  rcases field? given "keyPath" Json.text? with _ | _ | _ <;>
    rcases field? given "certificatePath" Json.text? with _ | _ | _ <;> rfl

/-! ## §2. Plugin keys. -/

/-- The configuration after one more setting. -/
def addSetting (config : Config) (key : String) (v : Json) : Option Config :=
  v.text?.map (config.insert key)

theorem tracks_setting : Tracks setting addSetting some where
  member := by
    intro config config' key hconfig
    cases hconfig
    have hmember := (decodes_string.map (config.insert key)).member
    have heq : (fun v => (addSetting config key v).bind some)
        = fun v => v.text?.map (config.insert key) := by
      funext v
      exact Option.bind_fun_some _
    rw [heq]
    exact hmember
  before := fun _ _ => ⟨_, rfl⟩

/-- Settings added one by one are those of the list, the later ones over the earlier. -/
theorem follow_addSetting (ms : List (List Piece × Json)) :
    ∀ config : Config, ((ms.mapM named?).bind fun given => follow addSetting config given)
      = (ms.mapM setting?).map fun settings =>
          settings.foldl (fun c p => c.insert p.1 p.2) config := by
  induction ms with
  | nil => intro config; rfl
  | cons m ms ih =>
      intro config
      obtain ⟨pieces, v⟩ := m
      rw [List.mapM_cons, List.mapM_cons, named?, setting?]
      cases text? pieces with
      | none => rfl
      | some name =>
          cases hv : v.text? with
          -- a value that is no string spoils the members, whatever comes after it
          | none =>
              cases ms.mapM named? with
              | none => rfl
              | some given =>
                  show ((v.text?.map (config.insert name)).bind _) = _
                  rw [hv]
                  rfl
          | some value =>
              have hrest := ih (config.insert name value)
              cases hgiven : ms.mapM named? with
              | none =>
                  rw [hgiven] at hrest
                  cases hsettings : ms.mapM setting? with
                  | none => rfl
                  | some settings => rw [hsettings] at hrest; cases hrest
              | some given =>
                  rw [hgiven] at hrest
                  show ((v.text?.map (config.insert name)).bind _) = _
                  rw [hv]
                  refine Eq.trans hrest ?_
                  cases ms.mapM setting? <;> rfl

theorem decodes_pluginConfig : Decodes pluginConfig config? := by
  have hinside := decodesInside_members tracks_setting (g := Config.empty) rfl
  have hobject : ∀ ms, ((ms.mapM named?).bind fun given =>
      (follow addSetting Config.empty given).bind some) = config? (.object ms) := by
    intro ms
    simp only [Option.bind_fun_some]
    exact follow_addSetting ms Config.empty
  refine ⟨fun {text rest config} hread => ?_, fun {ws body v config} hws hspells hv rest => ?_⟩
  · unfold pluginConfig at hread
    split at hread
    · next tail hdrop =>
      obtain ⟨ws, ms, body, htext, hws, hspells, hms⟩ := hinside.object_sound hdrop hread
      exact ⟨ws, .object ms, body, htext, hws, hspells, (hobject ms).symm.trans hms⟩
    · exact absurd hread (wrongType_ne_ok _ _ _ _)
  · rw [pluginConfig, hspells.dropSpace_value hws]
    cases v with
    | object ms =>
        obtain ⟨tail, hopen, hread⟩ :=
          hinside.object_complete hspells ((hobject ms).trans hv) rest
        rw [hopen]
        exact hread
    | null | boolean | number | string | array => cases hv

/-- The draft of a plugin key. -/
def pluginKeyDraft? (given : Given) : Option PluginKeyDraft := do
  return ⟨← field? given "id" Json.text?, ← field? given "pluginName" Json.text?,
    ← field? given "pluginConfig" config?⟩

theorem pluginKeyDraft?_eq_some {given : Given} {d : PluginKeyDraft} :
    pluginKeyDraft? given = some d ↔ field? given "id" Json.text? = some d.id
      ∧ field? given "pluginName" Json.text? = some d.pluginName
      ∧ field? given "pluginConfig" config? = some d.config := by
  obtain ⟨id, pluginName, config⟩ := d
  simp [pluginKeyDraft?, Option.bind_eq_some_iff]

theorem follows_pluginKey : pluginKey.Follows pluginKeyDraft? where
  start := rfl
  distinct := by decide
  isGiven := by
    intro given d hd field hfield
    obtain ⟨hid, hname, hconfig⟩ := pluginKeyDraft?_eq_some.1 hd
    simp only [pluginKey, List.mem_cons, List.not_mem_nil, or_false] at hfield
    rcases hfield with rfl | rfl | rfl
    · exact isSome_field? hid
    · exact isSome_field? hname
    · exact isSome_field? hconfig
  read := by
    intro given d hd field hfield hnew
    obtain ⟨hid, hname, hconfig⟩ := pluginKeyDraft?_eq_some.1 hd
    simp only [pluginKey, List.mem_cons, List.not_mem_nil, or_false] at hfield
    rcases hfield with rfl | rfl | rfl
    · refine (decodes_string.map _).congr fun v => ?_
      rw [pluginKeyDraft?, field?_concat_self hnew, field?_concat_of_ne given (by decide),
        field?_concat_of_ne given (by decide), hname, hconfig]
      cases v.text? <;> rfl
    · refine (decodes_string.map _).congr fun v => ?_
      rw [pluginKeyDraft?, field?_concat_self hnew, field?_concat_of_ne given (by decide),
        field?_concat_of_ne given (by decide), hid, hconfig]
      cases v.text? <;> rfl
    · refine (decodes_pluginConfig.map _).congr fun v => ?_
      rw [pluginKeyDraft?, field?_concat_self hnew, field?_concat_of_ne given (by decide),
        field?_concat_of_ne given (by decide), hid, hname]
      cases config? v <;> rfl
  before := by
    intro given more d hd
    obtain ⟨hid, hname, hconfig⟩ := pluginKeyDraft?_eq_some.1 hd
    obtain ⟨id, hid⟩ := field?_of_append hid
    obtain ⟨pluginName, hname⟩ := field?_of_append hname
    obtain ⟨config, hconfig⟩ := field?_of_append hconfig
    exact ⟨⟨id, pluginName, config⟩, pluginKeyDraft?_eq_some.2 ⟨hid, hname, hconfig⟩⟩

theorem decodes_pluginKey : Decodes pluginKey.read pluginKey? := by
  refine follows_pluginKey.decodes_read.congr fun v => ?_
  show ((v.given? ["id", "pluginName", "pluginConfig"]).bind fun given =>
    (pluginKeyDraft? given).bind pluginKey.finish) = pluginKey? v
  unfold pluginKey?
  congr 1
  funext given
  rw [required?_eq_bind, required?_eq_bind, pluginKeyDraft?]
  rcases field? given "id" Json.text? with _ | _ | _ <;>
    rcases field? given "pluginName" Json.text? with _ | _ | _ <;>
      cases field? given "pluginConfig" config? <;> rfl

/-! ## §3. Entries. -/

/-- The draft of an entry. -/
def entryDraft? (given : Given) : Option EntryDraft := do
  return ⟨← field? given "name" Json.text?, ← field? given "x509KeyPair" (Json.orNull keyPair?),
    ← field? given "externalKey" (Json.orNull pluginKey?)⟩

theorem entryDraft?_eq_some {given : Given} {d : EntryDraft} :
    entryDraft? given = some d ↔ field? given "name" Json.text? = some d.name
      ∧ field? given "x509KeyPair" (Json.orNull keyPair?) = some d.pair
      ∧ field? given "externalKey" (Json.orNull pluginKey?) = some d.plugin := by
  obtain ⟨name, pair, plugin⟩ := d
  simp [entryDraft?, Option.bind_eq_some_iff]

theorem follows_rawEntry : rawEntry.Follows entryDraft? where
  start := rfl
  distinct := by decide
  isGiven := by
    intro given d hd field hfield
    obtain ⟨hname, hpair, hplugin⟩ := entryDraft?_eq_some.1 hd
    simp only [rawEntry, List.mem_cons, List.not_mem_nil, or_false] at hfield
    rcases hfield with rfl | rfl | rfl
    · exact isSome_field? hname
    · exact isSome_field? hpair
    · exact isSome_field? hplugin
  read := by
    intro given d hd field hfield hnew
    obtain ⟨hname, hpair, hplugin⟩ := entryDraft?_eq_some.1 hd
    simp only [rawEntry, List.mem_cons, List.not_mem_nil, or_false] at hfield
    rcases hfield with rfl | rfl | rfl
    · refine (decodes_string.map _).congr fun v => ?_
      rw [entryDraft?, field?_concat_self hnew, field?_concat_of_ne given (by decide),
        field?_concat_of_ne given (by decide), hpair, hplugin]
      cases v.text? <;> rfl
    · refine ((decodes_keyPair.nullable rfl).map _).congr fun v => ?_
      rw [entryDraft?, field?_concat_self hnew, field?_concat_of_ne given (by decide),
        field?_concat_of_ne given (by decide), hname, hplugin]
      cases v.orNull keyPair? <;> rfl
    · refine ((decodes_pluginKey.nullable rfl).map _).congr fun v => ?_
      rw [entryDraft?, field?_concat_self hnew, field?_concat_of_ne given (by decide),
        field?_concat_of_ne given (by decide), hname, hpair]
      cases v.orNull pluginKey? <;> rfl
  before := by
    intro given more d hd
    obtain ⟨hname, hpair, hplugin⟩ := entryDraft?_eq_some.1 hd
    obtain ⟨name, hname⟩ := field?_of_append hname
    obtain ⟨pair, hpair⟩ := field?_of_append hpair
    obtain ⟨plugin, hplugin⟩ := field?_of_append hplugin
    exact ⟨⟨name, pair, plugin⟩, entryDraft?_eq_some.2 ⟨hname, hpair, hplugin⟩⟩

theorem decodes_rawEntry : Decodes rawEntry.read rawEntry? := by
  refine follows_rawEntry.decodes_read.congr fun v => ?_
  show ((v.given? ["name", "x509KeyPair", "externalKey"]).bind fun given =>
    (entryDraft? given).bind rawEntry.finish) = rawEntry? v
  unfold rawEntry?
  congr 1
  funext given
  rw [required?_eq_bind, entryDraft?]
  rcases field? given "name" Json.text? with _ | _ | _ <;>
    cases field? given "x509KeyPair" (Json.orNull keyPair?) <;>
      cases field? given "externalKey" (Json.orNull pluginKey?) <;> rfl

/-- The material of an entry is accepted if it is the only one and can be used. -/
theorem toOption_material (raw : RawEntry) : raw.material.toOption = raw.material? := by
  obtain ⟨name, _ | pair, _ | key⟩ := raw
  · rfl
  · unfold RawEntry.material RawEntry.material?
    cases hid : Text.isBlank key.id with
    | true => simp [Except.toOption, hid]
    | false => cases hname : Text.isBlank key.pluginName <;> simp [Except.toOption, hid, hname]
  · rfl
  · rfl

theorem decodes_entry : Decodes entry entry? := by
  refine (decodes_rawEntry.check
    (f := fun raw => raw.material?.map fun material => ⟨raw.name, material⟩) ?_).congr fun v => ?_
  · intro raw e text rest
    rw [← toOption_material]
    cases raw.material with
    | ok material =>
        constructor
        · intro h
          cases h
          exact ⟨rfl, rfl⟩
        · rintro ⟨h, rfl⟩
          cases h
          rfl
    | error unfit => exact ⟨fun h => (by cases h), fun h => (by cases h.1)⟩
  · unfold entry?
    congr 1
    funext raw
    cases raw.material? <;> rfl

/-! ## §4. Registries. -/

theorem decodes_entries : Decodes entries entries? := by
  have hinside := decodesInside_elements decodes_entry
  refine ⟨fun {text rest xs} hread => ?_, fun {ws body v xs} hws hspells hv rest => ?_⟩
  · unfold entries at hread
    split at hread
    · next tail hdrop =>
      obtain ⟨ws, vs, body, htext, hws, hspells, hvs⟩ := hinside.array_sound hdrop hread
      exact ⟨ws, .array vs, body, htext, hws, hspells, hvs⟩
    · exact absurd hread (wrongType_ne_ok _ _ _ _)
  · rw [entries, hspells.dropSpace_value hws]
    cases v with
    | array vs =>
        obtain ⟨tail, hopen, hread⟩ := hinside.array_complete hspells hv rest
        rw [hopen]
        exact hread
    | null | boolean | number | string | object => cases hv

/-- The draft of a registry. -/
def registryDraft? (given : Given) : Option RegistryDraft := do
  return ⟨← field? given "default" (Json.orNull Json.text?), ← field? given "keys" entries?⟩

theorem registryDraft?_eq_some {given : Given} {d : RegistryDraft} :
    registryDraft? given = some d
      ↔ field? given "default" (Json.orNull Json.text?) = some d.defaultName
        ∧ field? given "keys" entries? = some d.entries := by
  obtain ⟨defaultName, entries⟩ := d
  simp [registryDraft?, Option.bind_eq_some_iff]

theorem follows_registry : registry.Follows registryDraft? where
  start := rfl
  distinct := by decide
  isGiven := by
    intro given d hd field hfield
    obtain ⟨hdefault, hentries⟩ := registryDraft?_eq_some.1 hd
    simp only [registry, List.mem_cons, List.not_mem_nil, or_false] at hfield
    rcases hfield with rfl | rfl
    · exact isSome_field? hdefault
    · exact isSome_field? hentries
  read := by
    intro given d hd field hfield hnew
    obtain ⟨hdefault, hentries⟩ := registryDraft?_eq_some.1 hd
    simp only [registry, List.mem_cons, List.not_mem_nil, or_false] at hfield
    rcases hfield with rfl | rfl
    · refine ((decodes_string.nullable rfl).map _).congr fun v => ?_
      rw [registryDraft?, field?_concat_self hnew, field?_concat_of_ne given (by decide),
        hentries]
      cases v.orNull Json.text? <;> rfl
    · refine (decodes_entries.map _).congr fun v => ?_
      rw [registryDraft?, field?_concat_self hnew, field?_concat_of_ne given (by decide),
        hdefault]
      cases entries? v <;> rfl
  before := by
    intro given more d hd
    obtain ⟨hdefault, hentries⟩ := registryDraft?_eq_some.1 hd
    obtain ⟨defaultName, hdefault⟩ := field?_of_append hdefault
    obtain ⟨entries, hentries⟩ := field?_of_append hentries
    exact ⟨⟨defaultName, entries⟩, registryDraft?_eq_some.2 ⟨hdefault, hentries⟩⟩

/-- **The reader of a registry takes what the format makes a registry of, whatever follows.** -/
theorem decodes_registry : Decodes registry.read registry? := by
  refine follows_registry.decodes_read.congr fun v => ?_
  show ((v.given? ["default", "keys"]).bind fun given =>
    (registryDraft? given).bind registry.finish) = registry? v
  unfold registry?
  congr 1
  funext given
  rw [registryDraft?]
  cases field? given "default" (Json.orNull Json.text?) <;>
    cases field? given "keys" entries? <;> rfl

/-! ## §5. Whole documents. -/

/-- After the registry only white space may come. -/
theorem document_iff {text rest : List Char} {r : Registry} :
    document text = .ok r rest
      ↔ ∃ after, registry.read text = .ok r after ∧ IsSpace after ∧ rest = [] := by
  constructor
  · intro h
    obtain ⟨r', after, hread, hnext⟩ := stages_of_bind h
    obtain ⟨_, mid, hspace, hend⟩ := stages_of_bind hnext
    cases hspace
    obtain ⟨ws, hws, hafter⟩ := space_dropSpace after
    split at hend
    · next hdrop =>
      cases hend
      rw [hdrop, List.append_nil] at hafter
      exact ⟨after, hread, hafter ▸ hws, rfl⟩
    · cases hend
  · rintro ⟨after, hread, hspace, rfl⟩
    have hend : space after = .ok () [] := by rw [space, dropSpace_isSpace hspace]
    rw [document, bind_eq_of_ok hread]
    exact bind_eq_of_ok hend _

theorem parse_iff_document {text : String} {r : Registry} :
    parse text = .ok r ↔ ∃ rest, document text.toList = .ok r rest := by
  unfold parse
  cases document text.toList with
  | ok r' rest =>
      constructor
      · intro h
        cases h
        exact ⟨rest, rfl⟩
      · rintro ⟨rest', h⟩
        cases h
        rfl
  | fail fault left => exact ⟨fun h => (by cases h), fun ⟨_, h⟩ => (by cases h)⟩
  | mismatch cause rest => exact ⟨fun h => (by cases h), fun ⟨_, h⟩ => (by cases h)⟩

/-- **A text is accepted as a registry exactly if it is one JSON value that is this registry,
with nothing around it but white space.** -/
theorem parse_eq_ok_iff (text : String) (r : Registry) :
    parse text = .ok r ↔ ∃ before v body after,
      text.toList = before ++ (body ++ after) ∧ IsSpace before ∧ IsSpace after
        ∧ Spells (.value v) body ∧ registry? v = some r := by
  rw [parse_iff_document]
  constructor
  · rintro ⟨rest, h⟩
    obtain ⟨after, hread, hafter, -⟩ := document_iff.1 h
    obtain ⟨before, v, body, htext, hbefore, hspells, hv⟩ := decodes_registry.sound hread
    exact ⟨before, v, body, after, htext, hbefore, hafter, hspells, hv⟩
  · rintro ⟨before, v, body, after, htext, hbefore, hafter, hspells, hv⟩
    refine ⟨[], document_iff.2 ⟨after, ?_, hafter, rfl⟩⟩
    rw [htext]
    exact decodes_registry.complete hbefore hspells hv after

end Keyring.Document
