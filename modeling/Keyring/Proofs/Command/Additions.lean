/-
  Keyring.Proofs.Command.Additions
  ────────────────────────────────
  **WHAT ADDING A KEY COMES TO.**

  A run that adds a key has put one entry behind those that were loaded and
  saved the result.  What the entry holds does not depend on the folder the
  program runs in: the paths of a key pair count from the root and stay as
  they are.  And whether the report calls the key the default now is whether
  it is one.

      AddRequest.Stores — what a run that adds a key has done

  The report speaks of the registry that was saved.  It is what is loaded
  next if any key was loaded before; else only if the path of the document
  is clear.

  Main results:
    * `stores_of_outcome` — what is stored, and what is reported of it;
    * `stored_paths_settled` — the paths of a key pair;
    * `default_line_iff` — the line about a new default.
-/
import Keyring.Proofs.Command.Durability
import Keyring.Proofs.Path.Absolute
import Keyring.Proofs.Store.Clearance
import Keyring.Proofs.Store.Truncation

namespace Keyring

open FileSystem
open Terminal (Line statusText)

namespace Command

variable {e : Environment} {arguments : List Bytes} {fs after : FileSystem} {result : Result}
  {invocation : Invocation} {a : AddRequest} {s : Store} {r : Registry} {new : Entry}

/-! ## §1. What is stored. -/

/-- A key is added: a new entry is put behind those that were loaded, and the result is saved. -/
structure AddRequest.Stores (a : AddRequest) (s : Store) (fs after : FileSystem) (r : Registry)
    (new : Entry) : Prop where
  loaded : s.loaded fs = .ok r
  named : new.name = a.name
  fresh : new.name ∉ r.names
  gives : a.Gives fs new.material
  sound : (r.push new a.makeDefault).Sound
  saved : runOn (s.save (r.push new a.makeDefault)) fs = (.ok (), after)

/-- **A run that adds a key has stored an entry and reports on it.** -/
theorem stores_of_outcome (h : outcome e arguments fs = (result, after))
    (hread : interpret arguments e.configDir = .ok invocation)
    (hadd : invocation.action = .add a) (hcode : result.exitCode = 0) :
    ∃ folder r new, e.configFolder invocation.configDir = .ok folder
      ∧ a.Stores (Store.inFolder folder) fs after r new
      ∧ result.output = Terminal.report e.wantsColor
          (additionLine new :: defaultLine (r.push new a.makeDefault) a.name) := by
  obtain ⟨folder, q, answer, hfolder, hrequest, hserve, rfl⟩ := answered_of_outcome h hread hcode
  rw [hadd] at hrequest
  obtain ⟨r, changed, hload, hanswer, hsave⟩ :=
    serve_change_eq_ok (isChange_of_request hrequest) hserve
  have hsound := (sound_of_loaded hload).respond hanswer
  obtain ⟨material, hgives, fresh, rfl, hreport⟩ := pushed_of_respond hrequest hanswer
  refine ⟨folder, r, ⟨a.name, material⟩, hfolder, ⟨hload, rfl, fresh, hgives, hsound, hsave⟩, ?_⟩
  rw [hreport]
  rfl

/-! ## §2. The paths of a key pair. -/

/-- The path of a key file that is there is stored as it is, and it is some path. -/
theorem keyFile_eq_ok {p : Path} {text : String} (h : fs.keyFile p = .ok text) :
    .ofString text = p ∧ p.isEmpty = false := by
  rw [keyFile_eq] at h
  cases htext : p.toString? with
  | none => rw [htext] at h; cases h
  | some found =>
      have hbytes := Bytes.eq_of_toString?_eq_some htext
      simp only [htext] at h
      cases hkind : fs.inspect p with
      | error cause => rw [hkind] at h; cases h
      | ok kind =>
          rw [hkind] at h
          cases kind <;> cases h
          refine ⟨congrArg Path.mk hbytes.symm, ?_⟩
          -- the empty path leads to nothing
          cases hempty : p.isEmpty with
          | false => rfl
          | true =>
              have hnothing : p = ⟨[]⟩ := congrArg Path.mk (List.isEmpty_iff.1 hempty)
              rw [hnothing] at hkind
              cases hkind

/-- With a working folder, only the empty path has no form from the root. -/
theorem absolute_spec {folder : Path} (hworking : fs.workingPath = .ok folder)
    (hfolder : folder.IsBare) {p : Path} (hp : p.isEmpty = false) :
    p.absolute? folder = some (fs.absolute p) ∧ (fs.absolute p).IsNormal
      ∧ (fs.absolute p).names = (if p.isAbsolute then [] else folder.names) ++ p.names
      ∧ ((fs.absolute p).endsInSlash = true
          ↔ p.endsInSlash = true ∨ ∀ byte ∈ (fs.absolute p).bytes, byte = slash) := by
  obtain ⟨q, hq, hspec⟩ := Path.absolute?_spec hfolder hp
  have habsolute : fs.absolute p = q := by
    unfold FileSystem.absolute
    rw [hworking]
    exact congrArg (·.getD p) hq
  rw [habsolute]
  exact ⟨hq, hspec⟩

/-- A normal path stays as it is, also where the working folder is gone. -/
theorem absolute_of_isNormal (other : FileSystem) {p : Path} (h : p.IsNormal) :
    other.absolute p = p := by
  unfold FileSystem.absolute
  cases other.workingPath with
  | ok folder => exact congrArg (·.getD p) (h.absolute?_eq folder)
  | error cause =>
      show (if p.isAbsolute = true then _ else _) = _
      rw [if_pos h.absolute, h.absolute?_eq]
      rfl

/-- A stored path is that of a key file from the root, and it is normal. -/
theorem settled_of_keyFile {folder : Path} (hworking : fs.workingPath = .ok folder)
    (hfolder : folder.IsBare) {given : Path} {stored : String}
    (h : fs.keyFile (fs.absolute given) = .ok stored) :
    .ofString stored = fs.absolute given ∧ (Path.ofString stored).IsNormal := by
  obtain ⟨hstored, hne⟩ := keyFile_eq_ok h
  refine ⟨hstored, ?_⟩
  rw [hstored]
  cases hempty : given.isEmpty with
  | false => exact (absolute_spec hworking hfolder hempty).2.1
  | true =>
      -- the empty path has no form from the root, and the file would not have been found
      have hsame : fs.absolute given = given := by
        unfold FileSystem.absolute Path.absolute?
        rw [hworking]
        simp [hempty]
      rw [hsame, hempty] at hne
      cases hne

/-- **The stored paths of a key pair do not depend on the working folder.**  The document is read
back as the registry with that pair.  Its paths count from the root and are normal, and so they are
what they are from any folder; and what counts from the root has the names of the path, `..` among
them, behind those of the folder where the path does not. -/
theorem stored_paths_settled {folder : Path} (hworking : fs.workingPath = .ok folder)
    (hfolder : folder.IsBare) :
    (∀ {e : Environment} {arguments : List Bytes} {invocation : Invocation} {a : AddRequest}
        {key cert : Path} {result : Result} {after : FileSystem},
      outcome e arguments fs = (result, after) →
      interpret arguments e.configDir = .ok invocation → invocation.action = .add a →
      a.key = some key → a.cert = some cert → result.exitCode = 0 →
      ∃ configFolder r pair place, e.configFolder invocation.configDir = .ok configFolder
        ∧ (runOn (Store.inFolder configFolder).load fs).1 = .ok r
        ∧ (Store.inFolder configFolder).landing fs = .ok ⟨place, false⟩
        ∧ after.node? place = some (.file
            (Store.encode (r.push ⟨a.name, .keyPair pair⟩ a.makeDefault)) ownerOnly)
        ∧ (∀ s : Store, s.decode (Store.encode (r.push ⟨a.name, .keyPair pair⟩ a.makeDefault))
            = .ok (r.push ⟨a.name, .keyPair pair⟩ a.makeDefault))
        ∧ ∀ given stored, (given, stored) ∈ [(key, pair.keyPath), (cert, pair.certificatePath)] →
          .ofString stored = fs.absolute given ∧ (Path.ofString stored).IsNormal
          ∧ ∀ other : FileSystem, other.absolute (.ofString stored) = .ofString stored)
    ∧ ∀ p : Path, p.isEmpty = false →
      p.absolute? folder = some (fs.absolute p) ∧ (fs.absolute p).IsNormal
        ∧ (fs.absolute p).names = (if p.isAbsolute then [] else folder.names) ++ p.names
        ∧ ((fs.absolute p).endsInSlash = true
            ↔ p.endsInSlash = true ∨ ∀ byte ∈ (fs.absolute p).bytes, byte = slash) := by
  refine ⟨?_, fun p => absolute_spec hworking hfolder⟩
  intro e arguments invocation a key cert result after h hread hadd hkey hcert hcode
  obtain ⟨configFolder, r, new, hconfig, hstores, -⟩ := stores_of_outcome h hread hadd hcode
  obtain ⟨place, hplace⟩ := save_eq_ok hstores.saved
  obtain ⟨name, material⟩ := new
  obtain rfl : name = a.name := hstores.named
  cases hstores.gives with
  | @pair key' cert' keyPath certificatePath keyGiven certGiven keyFound certFound =>
      obtain rfl : key = key' := Option.some.inj (hkey.symm.trans keyGiven)
      obtain rfl : cert = cert' := Option.some.inj (hcert.symm.trans certGiven)
      refine ⟨configFolder, r, ⟨keyPath, certificatePath⟩, place, hconfig, ?_, hplace.entry,
        hplace.node?_place, fun s => decode_encode s hstores.sound, ?_⟩
      · rw [load_run, hstores.loaded]
      · intro given stored hmem
        have hsettled : .ofString stored = fs.absolute given ∧ (Path.ofString stored).IsNormal := by
          rcases List.mem_pair.1 hmem with heq | heq
          all_goals cases heq
          · exact settled_of_keyFile hworking hfolder keyFound
          · exact settled_of_keyFile hworking hfolder certFound
        exact ⟨hsettled.1, hsettled.2, fun other => absolute_of_isNormal other hsettled.2⟩
  | plugin _ _ unpaired _ =>
      rw [hkey, hcert] at unpaired
      rcases unpaired with hnone | hnone <;> cases hnone

/-- A folder `w` to work in with a key, and a certificate in the folder above. -/
def workshop : FileSystem where
  nodes := [([[0x77]], .folder), ([Bytes.ofString "k", [0x77]], .file [] ownerOnly),
    ([Bytes.ofString "c"], .file [] ownerOnly)]
  workingFolder := [[0x77]]

/-- The arguments for them, with a detour. -/
def workshopArguments : List Bytes :=
  ["--config-dir", "d", "keys", "add", "n", "--key", ".//k", "--cert", "./../c"].map
    Bytes.ofString

theorem workshop_isBare : (Path.ofString "/w").IsBare :=
  Path.isBare_root.push (by decide : slash ∉ [0x77]) (by decide)

/-- **Two paths that are stored from the root.** -/
theorem workshop_paths_settled :
    workshop.workingPath = .ok (.ofString "/w") ∧ (Path.ofString "/w").IsBare
      ∧ (outcome bareEnvironment workshopArguments workshop).1.exitCode = 0
      ∧ ∃ (r : Registry) (pair : KeyPair) (place : Location),
          (outcome bareEnvironment workshopArguments workshop).2.node? place
            = some (.file (Store.encode (r.push ⟨"n", .keyPair pair⟩ false)) ownerOnly)
          ∧ (Store.inFolder (.ofString "d")).decode
              (Store.encode (r.push ⟨"n", .keyPair pair⟩ false))
            = .ok (r.push ⟨"n", .keyPair pair⟩ false)
          ∧ Path.ofString pair.keyPath = .ofString "/w/k"
          ∧ Path.ofString pair.certificatePath = .ofString "/w/../c"
          ∧ ∀ other : FileSystem, other.absolute (.ofString "/w/../c") = .ofString "/w/../c" := by
  have hworking : workshop.workingPath = .ok (.ofString "/w") := by decide +kernel
  have hread : interpret workshopArguments none = .ok ⟨some (.ofString "d"),
      .add ⟨"n", some (.ofString ".//k"), some (.ofString "./../c"), none, none, [], false⟩⟩ := by
    decide +kernel
  have hcode : (outcome bareEnvironment workshopArguments workshop).1.exitCode = 0 := by
    decide +kernel
  have hkey : workshop.absolute (.ofString ".//k") = .ofString "/w/k" := by decide +kernel
  have hcert : workshop.absolute (.ofString "./../c") = .ofString "/w/../c" := by decide +kernel
  have hrun : outcome bareEnvironment workshopArguments workshop
      = ((outcome bareEnvironment workshopArguments workshop).1,
        (outcome bareEnvironment workshopArguments workshop).2) := rfl
  obtain ⟨hstored, -⟩ := stored_paths_settled hworking workshop_isBare
  obtain ⟨-, r, pair, place, -, -, -, hdocument, hback, hpaths⟩ :=
    hstored hrun hread rfl rfl rfl hcode
  obtain ⟨hkeyPath, -⟩ := hpaths (.ofString ".//k") pair.keyPath List.mem_cons_self
  obtain ⟨hcertPath, -, hfixed⟩ := hpaths (.ofString "./../c") pair.certificatePath
    (List.mem_cons_of_mem _ List.mem_cons_self)
  rw [hcert] at hcertPath
  rw [hcertPath] at hfixed
  exact ⟨hworking, workshop_isBare, hcode, r, pair, place, hdocument, hback _,
    hkeyPath.trans hkey, hcertPath, hfixed⟩

/-! ## §3. The line about a new default. -/

/-- A new entry is the default if it is asked for as one, or the first.  Its name was never the
default before: that is a name among those loaded. -/
theorem isDefault_push_iff (hrules : r.KeepsRules) (fresh : new.name ∉ r.names)
    (makeDefault : Bool) :
    (r.push new makeDefault).isDefault new.name = true ↔ makeDefault = true ∨ r.entries = [] := by
  unfold Registry.isDefault Registry.push
  dsimp only
  split
  · next hchosen =>
    have hchosen : makeDefault = true ∨ r.entries = [] := by simpa using hchosen
    simp [hchosen]
  · next hkept =>
    have hkept : ¬ (makeDefault = true ∨ r.entries = []) := by simpa using hkept
    have hother : r.defaultName ≠ some new.name := fun heq => fresh (hrules.chosen _ heq)
    simp [hother, hkept]

/-- Otherwise the default is what it was. -/
theorem defaultName_push_of_not {makeDefault : Bool}
    (h : ¬ (makeDefault = true ∨ r.entries = [])) :
    (r.push new makeDefault).defaultName = r.defaultName := by
  have hkept : (makeDefault || r.entries.isEmpty) = false := by simpa using h
  unfold Registry.push
  rw [hkept]
  rfl

namespace AddRequest.Stores

/-- What was saved is loaded next, unless it is the first key on a path that is not clear. -/
theorem loaded_after_iff (h : a.Stores s fs after r new) :
    s.loaded after = .ok (r.push new a.makeDefault) ↔ (r.entries = [] → s.IsClear fs) := by
  rw [loaded_after_save_iff h.sound h.saved]
  constructor
  · exact fun hclear _ => hclear
  · intro hclear
    by_cases hentries : r.entries = []
    · exact hclear hentries
    · exact isClear_of_loaded h.loaded hentries h.saved

/-- Without a name the new entry is found just if it is the default of what is loaded. -/
theorem resolved_after_iff (h : a.Stores s fs after r new) :
    (runOn (s.resolveKey none) after).1 = .ok new
      ↔ (a.makeDefault = true ∨ r.entries = []) ∧ (r.entries = [] → s.IsClear fs) := by
  have hrules := h.sound.toKeepsRules
  have hmem : new ∈ (r.push new a.makeDefault).entries :=
    List.mem_append_right _ List.mem_cons_self
  rw [resolveKey_run, ← isDefault_push_iff (sound_of_loaded h.loaded).toKeepsRules h.fresh,
    ← h.loaded_after_iff]
  by_cases hloaded : s.loaded after = .ok (r.push new a.makeDefault)
  · rw [hloaded, ok_bind, hrules.resolve_none_eq_ok_iff]
    simp [hmem]
  · -- then the document is in its own way
    have hclear : ¬ s.IsClear fs := fun hclear => hloaded ((loaded_after_save_iff h.sound h.saved).2
      hclear)
    simp only [hloaded, and_false, iff_false]
    rw [loaded_after_blind_save hclear h.saved]
    exact nofun

end AddRequest.Stores

/-- **The report says that a key is the default now just if it was asked for as one or is the
first.**  It is found without a name then, unless it is the first on a path that is not clear; and
where nothing is said, the document is loaded with the default that it had. -/
theorem default_line_iff (h : outcome e arguments fs = (result, after))
    (hread : interpret arguments e.configDir = .ok invocation)
    (hadd : invocation.action = .add a) (hcode : result.exitCode = 0) :
    ∃ folder r new told, e.configFolder invocation.configDir = .ok folder
      ∧ (runOn (Store.inFolder folder).load fs).1 = .ok r
      ∧ new.name = a.name ∧ a.Gives fs new.material
      ∧ result.output = Terminal.report e.wantsColor (additionLine new ::
          if told = true then [.success ("'" ++ a.name ++ "' is now the default signing key")]
          else [])
      ∧ result.output = statusText e.wantsColor .green "✓" (additionMessage new)
          ++ (if told = true then statusText e.wantsColor .green "✓"
              ("'" ++ a.name ++ "' is now the default signing key") else "")
      ∧ (told = true ↔ a.makeDefault = true ∨ r.entries = [])
      ∧ ((runOn ((Store.inFolder folder).resolveKey none) after).1 = .ok new
          ↔ told = true ∧ (r.entries = [] → (Store.inFolder folder).IsClear fs))
      ∧ (told = false → ∃ changed, (runOn (Store.inFolder folder).load after).1 = .ok changed
          ∧ changed.entries = r.entries ++ [new] ∧ changed.defaultName = r.defaultName) := by
  obtain ⟨folder, r, new, hfolder, hstores, houtput⟩ := stores_of_outcome h hread hadd hcode
  have htold := isDefault_push_iff (sound_of_loaded hstores.loaded).toKeepsRules hstores.fresh
    a.makeDefault
  rw [hstores.named] at htold
  refine ⟨folder, r, new, (r.push new a.makeDefault).isDefault a.name, hfolder, ?_, hstores.named,
    hstores.gives, houtput, ?_, htold, ?_, ?_⟩
  · rw [load_run, hstores.loaded]
  · rw [houtput, additionLine_eq, Terminal.report_cons]
    unfold defaultLine
    split
    · rfl
    · rfl
  · rw [htold]
    exact hstores.resolved_after_iff
  · intro hsilent
    have hkept : ¬ (a.makeDefault = true ∨ r.entries = []) := by
      rw [← htold, hsilent]
      exact Bool.false_ne_true
    refine ⟨r.push new a.makeDefault, ?_, rfl, defaultName_push_of_not hkept⟩
    rw [load_run]
    exact hstores.loaded_after_iff.2 fun hfirst => absurd (.inr hfirst) hkept

/-- **A default that is reported and is not found.**  The code is 0 and the report calls the first
key the default now; without a name it is not found from then on. -/
theorem tangledHome_default_lost :
    (outcome bareEnvironment tangledArguments tangledHome).1
        = ⟨0, "  ✓ Added plugin signing key: a (p)\n  ✓ 'a' is now the default signing key\n", ""⟩
      ∧ (runOn ((Store.inFolder (.ofString tangledFolder)).resolveKey none)
          (outcome bareEnvironment tangledArguments tangledHome).2).1
        ≠ .ok ⟨"a", .pluginKey ⟨"i", "p", .empty⟩⟩ := by
  have hread : interpret tangledArguments none = .ok ⟨some (.ofString tangledFolder),
      .add ⟨"a", none, none, some "p", some "i", [], false⟩⟩ := by decide +kernel
  have hload : (Store.inFolder (.ofString tangledFolder)).loaded tangledHome = .ok .empty := by
    decide +kernel
  have hrun : outcome bareEnvironment tangledArguments tangledHome
      = ((outcome bareEnvironment tangledArguments tangledHome).1,
        (outcome bareEnvironment tangledArguments tangledHome).2) := rfl
  have hcode := congrArg Result.exitCode tangledHome_outcome
  refine ⟨tangledHome_outcome, fun hfound => ?_⟩
  obtain ⟨folder, r, new, told, hfolder, hloaded, hname, hgives, -, -, -, hresolved, -⟩ :=
    default_line_iff hrun hread rfl hcode
  cases hfolder
  rw [load_run, hload] at hloaded
  cases hloaded
  obtain ⟨name, material⟩ := new
  obtain rfl : name = "a" := hname
  cases hgives with
  | pair keyGiven => cases keyGiven
  | plugin pluginGiven idGiven unpaired settings =>
      cases pluginGiven
      cases idGiven
      cases settings
      exact tangledHome_not_clear ((hresolved.1 hfound).2 rfl)

end Command

end Keyring
