/-
  Keyring.Proofs.Command.Listing
  ────────────────────────────────
  **WHAT IS LISTED AND WHAT IS FOUND.**

  A list compares the default with the name of every entry; without a name,
  a key is found as the first entry that bears the default.  The two agree
  on what was loaded: no name is there twice then, and a default that is set
  is the name of an entry.

  What is said of a list is said of all that is written, so that there is
  nothing else in it: no second mark, and no warning unless it is named.

      rowAs              — the row of an entry, marked or not
      rowText, rowsText  — rows as they are written
      entryText          — what is written of one key

  Main results:
    * `listing_of_resolved`, `listing_of_unresolved` — a list as a whole,
      with its marks and its warning;
    * `warning_mem_listing_iff` — when a list warns;
    * `report_rows`, `report_presentation` — rows and keys as they are
      written;
    * `listing_agrees` — both commands on one document.
-/
import Keyring.Proofs.Command.Requests
import Keyring.Proofs.Store.Soundness
import Keyring.Proofs.Terminal

namespace Keyring.Command

open FileSystem (ownerOnly)
open Terminal (Line paint report statusText titleText fieldText)

variable {s : Store} {fs : FileSystem} {r : Registry}

/-! ## §1. Lists. -/

/-- The title of a list. -/
def listTitle (s : Store) (r : Registry) : String :=
  "Signing keys (" ++ toString r.entries.length ++ ") in " ++ s.path.display

/-- The warning about a missing default. -/
def noDefaultWarning : Line := .warning "No default signing key set."

/-- The row of an entry, marked as the default or not. -/
def rowAs (marked : Bool) (entry : Entry) : Line :=
  .key marked entry.name entry.material.kind (detail entry.material)

theorem row_eq (r : Registry) (entry : Entry) :
    row r entry = rowAs (r.isDefault entry.name) entry := rfl

/-- No other entry bears the default. -/
theorem isDefault_of_other (hrules : r.KeepsRules) {front back : List Entry} {entry other : Entry}
    (hentries : r.entries = front ++ entry :: back) (hdefault : r.isDefault entry.name = true)
    (hother : other ∈ front ++ back) : r.isDefault other.name = false := by
  have hdistinct := hrules.distinct
  rw [Registry.names, hentries, List.map_append, List.map_cons, List.nodup_middle,
    List.nodup_cons, ← List.map_append] at hdistinct
  unfold Registry.isDefault at hdefault ⊢
  rw [beq_iff_eq] at hdefault
  rw [hdefault, beq_eq_false_iff_ne]
  intro heq
  exact hdistinct.1 (List.mem_map.2 ⟨other, hother, (Option.some.inj heq).symm⟩)

/-- **If an entry is found without a name, its row alone is marked, and there is no warning.** -/
theorem listing_of_resolved (hrules : r.KeepsRules) {entry : Entry}
    (h : r.resolve none = .ok entry) (s : Store) :
    ∃ front back, r.entries = front ++ entry :: back
      ∧ listing s r = .heading (listTitle s r)
          :: (front.map (rowAs false) ++ rowAs true entry :: back.map (rowAs false)) := by
  obtain ⟨hmem, hdefault⟩ := (hrules.resolve_none_eq_ok_iff entry).1 h
  obtain ⟨front, back, hentries⟩ := List.append_of_mem hmem
  have hother : ∀ other ∈ front ++ back, row r other = rowAs false other := by
    intro other hmem
    rw [row_eq, isDefault_of_other hrules hentries hdefault hmem]
  have hrows : r.entries.map (row r)
      = front.map (rowAs false) ++ rowAs true entry :: back.map (rowAs false) := by
    rw [hentries, List.map_append, List.map_cons, row_eq r entry, hdefault]
    congr 1
    · exact List.map_congr_left fun other hmem => hother other (List.mem_append_left _ hmem)
    · congr 1
      exact List.map_congr_left fun other hmem => hother other (List.mem_append_right _ hmem)
  have hset : r.defaultName = some entry.name := by
    rwa [Registry.isDefault, beq_iff_eq] at hdefault
  refine ⟨front, back, hentries, ?_⟩
  unfold listing
  have hsome : ¬ r.entries.isEmpty = true := by simp [hentries]
  rw [if_neg hsome, hrows, hset]
  exact List.append_nil _

/-- **If none is found without a name, no row is marked, and a list that has rows ends in a
warning.** -/
theorem listing_of_unresolved (hrules : r.KeepsRules) {cause : KeyError}
    (h : r.resolve none = .error cause) (s : Store) :
    listing s r = if r.entries = [] then
        [.warning "No signing keys configured.",
          .plain "  Run 'signkeys keys add <name> --key <path> --cert <path>' to add one."]
      else .heading (listTitle s r) :: r.entries.map (rowAs false)
        ++ [.plain "", noDefaultWarning] := by
  obtain ⟨-, hdefault⟩ := hrules.resolve_none_eq_error h
  have hrows : r.entries.map (row r) = r.entries.map (rowAs false) := by
    refine List.map_congr_left fun entry _ => ?_
    rw [row_eq, Registry.isDefault, hdefault]
    rfl
  unfold listing
  rw [hrows, hdefault]
  simp only [List.isEmpty_iff]
  rfl

/-- **The warning is there just if there are rows and none is found without a name.** -/
theorem warning_mem_listing_iff (hrules : r.KeepsRules) (s : Store) :
    noDefaultWarning ∈ listing s r ↔ r.entries ≠ [] ∧ r.resolve none = .error .noDefaultSet := by
  cases hresolve : r.resolve none with
  | ok entry =>
      obtain ⟨front, back, -, hlisting⟩ := listing_of_resolved hrules hresolve s
      rw [hlisting]
      simp [noDefaultWarning, rowAs]
  | error cause =>
      obtain ⟨rfl, -⟩ := hrules.resolve_none_eq_error hresolve
      rw [listing_of_unresolved hrules hresolve]
      split
      · next hnone => simp [noDefaultWarning, hnone]
      · next hsome => simp [hsome]

/-! ## §2. What is written. -/

/-- A row as it is written; the default has a star, and its name stands out. -/
def rowText (inColor marked : Bool) (entry : Entry) : String :=
  (if marked then "  " ++ paint inColor .green "*" ++ " " ++ paint inColor .bold entry.name
    else "    " ++ entry.name)
    ++ "  [" ++ entry.material.kind ++ "]  " ++ paint inColor .dimmed (detail entry.material)
    ++ "\n"

/-- Rows without a mark. -/
def rowsText (inColor : Bool) (entries : List Entry) : String :=
  String.join (entries.map (rowText inColor false))

/-- A key as it is shown. -/
def entryText (inColor : Bool) (entry : Entry) : String :=
  titleText inColor entry.name ++
    match entry.material with
    | .keyPair pair =>
      fieldText inColor "Type:        " "local key pair"
        ++ fieldText inColor "Key:         " pair.keyPath
        ++ fieldText inColor "Certificate: " pair.certificatePath
    | .pluginKey key =>
      fieldText inColor "Type:        " "plugin"
        ++ fieldText inColor "Plugin:      " key.pluginName
        ++ fieldText inColor "Key id:      " key.id
        ++ String.join (key.config.toList.map fun setting =>
          fieldText inColor "Config:      " (setting.1 ++ "=" ++ setting.2))

theorem text_rowAs (inColor marked : Bool) (entry : Entry) :
    (rowAs marked entry).text inColor = rowText inColor marked entry := by
  cases marked with
  | true => rfl
  | false => rfl

/-- **Rows without a mark are written one below the other.** -/
theorem report_rows (inColor : Bool) (entries : List Entry) :
    report inColor (entries.map (rowAs false)) = rowsText inColor entries := by
  unfold report rowsText
  rw [List.map_map]
  exact congrArg String.join (List.map_congr_left fun entry _ => text_rowAs inColor false entry)

theorem text_field {label padded : String}
    (hpadded : Terminal.padTo Terminal.labelWidth (label ++ ":") = padded) (inColor : Bool)
    (value : String) : (Line.field label value).text inColor = fieldText inColor padded value := by
  rw [← hpadded]
  rfl

/-- **A key is written with its name and all that it holds.** -/
theorem report_presentation (inColor : Bool) (entry : Entry) :
    report inColor (presentation entry) = entryText inColor entry := by
  have htype : ∀ value, (Line.field "Type" value).text inColor
      = fieldText inColor "Type:        " value := text_field (by decide) inColor
  unfold presentation entryText
  rw [Terminal.report_cons]
  cases entry.material with
  | keyPair pair =>
      dsimp only
      rw [Terminal.report_cons, Terminal.report_cons, Terminal.report_cons, htype,
        text_field (by decide : _ = "Key:         "),
        text_field (by decide : _ = "Certificate: "), Terminal.report_nil, String.append_empty,
        String.append_assoc]
      rfl
  | pluginKey key =>
      have hconfig : report inColor (key.config.toList.map fun setting =>
          Line.field "Config" (writeSetting setting))
          = String.join (key.config.toList.map fun setting =>
            fieldText inColor "Config:      " (setting.1 ++ "=" ++ setting.2)) := by
        unfold report
        rw [List.map_map]
        exact congrArg String.join (List.map_congr_left fun setting _ =>
          text_field (by decide) inColor (writeSetting setting))
      dsimp only
      rw [Terminal.report_append, hconfig, Terminal.report_cons, Terminal.report_cons,
        Terminal.report_cons, htype, text_field (by decide : _ = "Plugin:      "),
        text_field (by decide : _ = "Key id:      "), Terminal.report_nil, String.append_empty]
      simp only [String.append_assoc]
      rfl

/-! ## §3. The two commands. -/

theorem served_list (hload : s.loaded fs = .ok r) :
    served s .listKeys fs = (.ok (listing s r), fs) := by
  unfold served
  rw [serve_of_loaded hload]
  rfl

theorem served_present (hload : s.loaded fs = .ok r) (name : Option String) :
    served s (.resolveKey name) fs = ((r.resolve name).map presentation, fs) := by
  have hrespond : r.respond fs (.resolveKey name)
      = (r.resolve name).map fun found => (Answer.entry found, r) := by
    show (r.resolve name >>= fun found => pure (Answer.entry found, r)) = _
    cases r.resolve name <;> rfl
  unfold served
  rw [serve_of_loaded hload, hrespond]
  cases r.resolve name <;> rfl

variable {e : Environment} {folder : Path}

/-- **On one document the list and the key that is shown without a name agree.**  What both write is
told in full.  If a key is shown, the list has a title and a row for every entry in order, the row
of that key alone is marked, and there is nothing else.  If none is shown, that is because no
default is set; no row is marked then, and below the rows there is a warning, if there are any. -/
theorem listing_agrees {listArguments showArguments : List Bytes} {named named' : Option Path}
    (hlist : interpret listArguments e.configDir = .ok ⟨named, .list⟩)
    (hshow : interpret showArguments e.configDir = .ok ⟨named', .present none⟩)
    (hfolder : e.configFolder named = .ok folder) (hfolder' : e.configFolder named' = .ok folder)
    (hload : (runOn (Store.inFolder folder).load fs).1 = .ok r) :
    outcome e listArguments fs
        = (resultOf e (.ok (listing (Store.inFolder folder) r)), fs)
      ∧ (outcome e showArguments fs).2 = fs
      ∧ (noDefaultWarning ∈ listing (Store.inFolder folder) r
          ↔ r.entries ≠ [] ∧ (outcome e showArguments fs).1.exitCode ≠ 0)
      ∧ ((outcome e showArguments fs).1.exitCode = 0 → ∃ front entry back,
          r.entries = front ++ entry :: back
          ∧ (outcome e showArguments fs).1 = resultOf e (.ok (presentation entry))
          ∧ (outcome e showArguments fs).1 = ⟨0, entryText e.wantsColor entry, ""⟩
          ∧ listing (Store.inFolder folder) r = .heading (listTitle (Store.inFolder folder) r)
              :: (front.map (rowAs false) ++ rowAs true entry :: back.map (rowAs false))
          ∧ (outcome e listArguments fs).1 = ⟨0,
              titleText e.wantsColor (listTitle (Store.inFolder folder) r)
                ++ rowsText e.wantsColor front ++ rowText e.wantsColor true entry
                ++ rowsText e.wantsColor back, ""⟩)
      ∧ ((outcome e showArguments fs).1.exitCode ≠ 0 →
          (outcome e showArguments fs).1 = resultOf e (.error .noDefaultSet)
          ∧ (outcome e showArguments fs).1 = ⟨1, "", statusText e.wantsColor .red "✗"
              ("Error: default signing key not set\n\n  Solutions:\n"
                ++ "    → Mark a key as default: signkeys keys set-default <name>\n"
                ++ "    → Or name the key explicitly: signkeys keys show <name>")⟩
          ∧ (r.entries = [] → (outcome e listArguments fs).1 = ⟨0,
              statusText e.wantsColor .yellow "⚠" "No signing keys configured."
                ++ "  Run 'signkeys keys add <name> --key <path> --cert <path>' to add one.\n",
              ""⟩)
          ∧ (r.entries ≠ [] →
              listing (Store.inFolder folder) r = .heading (listTitle (Store.inFolder folder) r)
                :: r.entries.map (rowAs false) ++ [.plain "", noDefaultWarning]
              ∧ (outcome e listArguments fs).1 = ⟨0,
                titleText e.wantsColor (listTitle (Store.inFolder folder) r)
                  ++ rowsText e.wantsColor r.entries
                  ++ "\n" ++ statusText e.wantsColor .yellow "⚠" "No default signing key set.",
                ""⟩)) := by
  rw [load_run] at hload
  have hrules := (sound_of_loaded hload).toKeepsRules
  have hlisted : outcome e listArguments fs
      = (resultOf e (.ok (listing (Store.inFolder folder) r)), fs) := by
    rw [outcome_of_request hlist hfolder rfl, served_list hload]
  have hshown : outcome e showArguments fs
      = (resultOf e ((r.resolve none).map presentation), fs) := by
    rw [outcome_of_request hshow hfolder' rfl, served_present hload]
  rw [hlisted, hshown, warning_mem_listing_iff hrules]
  cases hresolve : r.resolve none with
  | ok entry =>
      have hcode : (resultOf e (.ok (presentation entry))).exitCode = 0 := rfl
      refine ⟨rfl, rfl, ⟨?_, fun h => absurd hcode h.2⟩, fun _ => ?_, fun h => absurd hcode h⟩
      · rintro ⟨-, hfailed⟩
        cases hfailed
      obtain ⟨front, back, hentries, hlisting⟩ :=
        listing_of_resolved hrules hresolve (Store.inFolder folder)
      refine ⟨front, entry, back, hentries, rfl, ?_, hlisting, ?_⟩
      · show Result.mk 0 (report e.wantsColor (presentation entry)) "" = _
        rw [report_presentation]
      · show Result.mk 0 (report e.wantsColor (listing _ r)) "" = _
        rw [hlisting, Terminal.report_cons, Terminal.report_append, Terminal.report_cons,
          report_rows, report_rows, text_rowAs]
        simp only [String.append_assoc]
        rfl
  | error cause =>
      obtain ⟨rfl, -⟩ := hrules.resolve_none_eq_error hresolve
      have hcode : (resultOf e (.error .noDefaultSet)).exitCode ≠ 0 := Nat.one_ne_zero
      refine ⟨rfl, rfl, ⟨fun h => ⟨h.1, hcode⟩, fun h => ⟨h.1, rfl⟩⟩, fun h => absurd h hcode,
        fun _ => ⟨rfl, rfl, fun hnone => ?_, fun hsome => ?_⟩⟩
      · have hlisting := listing_of_unresolved hrules hresolve (Store.inFolder folder)
        rw [if_pos hnone] at hlisting
        show Result.mk 0 (report e.wantsColor (listing _ r)) "" = _
        rw [hlisting]
        rfl
      · have hlisting := listing_of_unresolved hrules hresolve (Store.inFolder folder)
        rw [if_neg hsome] at hlisting
        refine ⟨hlisting, ?_⟩
        show Result.mk 0 (report e.wantsColor (listing _ r)) "" = _
        rw [hlisting, List.cons_append, Terminal.report_cons, Terminal.report_append, report_rows]
        simp only [String.append_assoc]
        rfl

/-- A folder `d` with a document in it. -/
def homeWith (content : Bytes) : FileSystem where
  nodes := [([[0x64]], .folder),
    ([Bytes.ofString Store.documentName, [0x64]], .file content ownerOnly)]
  workingFolder := []

/-- The arguments for a command on that folder. -/
def listedArguments (command : String) : List Bytes :=
  ["--config-dir", "d", "keys", command].map Bytes.ofString

theorem read_homeWith (content : Bytes) :
    (homeWith content).read (Store.inFolder (.ofString "d")).path = .ok content := rfl

theorem load_homeWith (h : r.Sound) :
    (Store.inFolder (.ofString "d")).loaded (homeWith (Store.encode r)) = .ok r := by
  unfold Store.loaded
  rw [read_homeWith]
  exact decode_encode (Store.inFolder (.ofString "d")) h

theorem interpret_listedArguments :
    interpret (listedArguments "list") none = .ok ⟨some (.ofString "d"), .list⟩
      ∧ interpret (listedArguments "show") none = .ok ⟨some (.ofString "d"), .present none⟩ := by
  decide +kernel

/-- The code tells whether a key is found without a name in the registry that was saved there. -/
theorem exitCode_homeWith (h : r.Sound) (henvironment : e.configDir = none) :
    (outcome e (listedArguments "show") (homeWith (Store.encode r))).1.exitCode
      = (resultOf e ((r.resolve none).map presentation)).exitCode := by
  have hshow := interpret_listedArguments.2
  rw [← henvironment] at hshow
  rw [outcome_of_request hshow rfl rfl, served_present (load_homeWith h)]

/-- Two keys, the first of which is the default. -/
def listedHome : FileSystem := homeWith (Store.encode twoKeys)

/-- The same keys without a default. -/
def undecidedKeys : Registry := { twoKeys with defaultName := none }

theorem undecidedKeys_sound : undecidedKeys.Sound where
  toKeepsRules := (Registry.validate_eq_ok_iff undecidedKeys).1 (by decide)
  usable := twoKeys_sound.usable

/-- Colours are wanted. -/
def colourfulEnvironment : Environment :=
  { bareEnvironment with forceColor := some (Bytes.ofString "1") }

/-- **The first of two keys is marked, and shown.**  It is so in colour too; and without a default
none is marked or shown, and the list says so. -/
theorem listedHome_agrees :
    (runOn (Store.inFolder (.ofString "d")).load listedHome).1 = .ok twoKeys
      ∧ (outcome bareEnvironment (listedArguments "list") listedHome).1
        = ⟨0, "\nSigning keys (2) in d/signingkeys.json\n"
          ++ "  * a  [local]  a.crt\n" ++ "    b  [plugin]  p / 1\n", ""⟩
      ∧ (outcome bareEnvironment (listedArguments "show") listedHome).1
        = ⟨0, "\na\n" ++ "  Type:        local key pair\n" ++ "  Key:         a.key\n"
          ++ "  Certificate: a.crt\n", ""⟩
      ∧ (outcome colourfulEnvironment (listedArguments "list") listedHome).1
        = ⟨0, "\n\x1b[1mSigning keys (2) in d/signingkeys.json\x1b[0m\n"
          ++ "  \x1b[32m*\x1b[0m \x1b[1ma\x1b[0m  [local]  \x1b[2ma.crt\x1b[0m\n"
          ++ "    b  [plugin]  \x1b[2mp / 1\x1b[0m\n", ""⟩
      ∧ (outcome bareEnvironment (listedArguments "list") (homeWith (Store.encode undecidedKeys))).1
        = ⟨0, "\nSigning keys (2) in d/signingkeys.json\n"
          ++ "    a  [local]  a.crt\n" ++ "    b  [plugin]  p / 1\n"
          ++ "\n  ⚠ No default signing key set.\n", ""⟩
      ∧ (outcome bareEnvironment (listedArguments "show") (homeWith (Store.encode undecidedKeys))).1
        = ⟨1, "", "  ✗ Error: default signing key not set\n\n  Solutions:\n"
          ++ "    → Mark a key as default: signkeys keys set-default <name>\n"
          ++ "    → Or name the key explicitly: signkeys keys show <name>\n"⟩ := by
  obtain ⟨hlist, hshow⟩ := interpret_listedArguments
  have hload : (runOn (Store.inFolder (.ofString "d")).load listedHome).1 = .ok twoKeys := by
    rw [load_run, listedHome, load_homeWith twoKeys_sound]
  have hundecided : (runOn (Store.inFolder (.ofString "d")).load
      (homeWith (Store.encode undecidedKeys))).1 = .ok undecidedKeys := by
    rw [load_run, load_homeWith undecidedKeys_sound]
  -- with a default, whether or not colours are wanted
  have hagree : ∀ e : Environment, e.configDir = none →
      (outcome e (listedArguments "show") listedHome).1
          = ⟨0, entryText e.wantsColor ⟨"a", .keyPair ⟨"a.key", "a.crt"⟩⟩, ""⟩
        ∧ (outcome e (listedArguments "list") listedHome).1
          = ⟨0, titleText e.wantsColor (listTitle (Store.inFolder (.ofString "d")) twoKeys)
            ++ rowsText e.wantsColor []
            ++ rowText e.wantsColor true ⟨"a", .keyPair ⟨"a.key", "a.crt"⟩⟩
            ++ rowsText e.wantsColor [⟨"b", .pluginKey ⟨"1", "p", .empty⟩⟩], ""⟩ := by
    intro e henvironment
    have hcode := exitCode_homeWith twoKeys_sound henvironment
    rw [← henvironment] at hlist hshow
    obtain ⟨-, -, -, hshown, -⟩ := listing_agrees hlist hshow rfl rfl hload
    obtain ⟨front, entry, back, hentries, -, houtput, hlisting, hrows⟩ := hshown hcode
    cases front with
    | nil =>
        cases hentries
        exact ⟨houtput, hrows⟩
    | cons first front =>
        -- the first row is marked
        cases hlisting
  obtain ⟨hshown, hlisted⟩ := hagree bareEnvironment rfl
  obtain ⟨-, -, -, -, hfailed⟩ :=
    listing_agrees (e := bareEnvironment) hlist hshow rfl rfl hundecided
  obtain ⟨-, hfailure, -, hwarned⟩ := hfailed (by
    rw [exitCode_homeWith undecidedKeys_sound rfl]
    exact Nat.one_ne_zero)
  obtain ⟨-, hwarned⟩ := hwarned (List.cons_ne_nil _ _)
  refine ⟨hload, hlisted.trans ?_, hshown.trans ?_,
    (hagree colourfulEnvironment rfl).2.trans ?_, hwarned.trans ?_, hfailure.trans ?_⟩
  all_goals decide +kernel

end Keyring.Command
