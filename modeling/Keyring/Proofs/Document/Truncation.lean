/-
  Keyring.Proofs.Document.Truncation
  ────────────────────────────────
  **A DOCUMENT THAT BREAKS OFF IS NO DOCUMENT.**

  A registry shows its own end: where the reader stops, it stops whatever
  follows.  So if a text and a text that goes on from it were both read,
  they would end at the same place, and what follows there is white space
  at most.  Nothing shorter than a document passes for one, and of a
  printed document the reader says even what is wrong: that it ends.

  A registry with a plugin key that cannot be used is printed too, and its
  document is refused whole.  That it is refused broken off as well rests
  on this: what were read of it would be read of the whole.

  Main results:
    * `parse_front_of_accepted` — any accepted text, broken off;
    * `parse_front_of_printed` — a printed one, and where it is refused;
    * `isUsable_of_parse_print` — which printed ones are accepted;
    * `parse_front_of_print` — every printed document, accepted or not.
-/
import Keyring.Proofs.Document.Acceptance
import Keyring.Proofs.Document.RoundTrip

namespace Keyring.Document

open Reader

/-! ## §1. Any accepted text. -/

/-- What is read of a text is read of every longer one. -/
theorem registry_read_append {front rest : List Char} {r : Registry}
    (h : registry.read front = .ok r rest) (back : List Char) :
    registry.read (front ++ back) = .ok r (rest ++ back) := by
  obtain ⟨ws, v, body, rfl, hws, hspells, hv⟩ := decodes_registry.sound h
  rw [List.append_assoc, List.append_assoc]
  exact decodes_registry.complete hws hspells hv (rest ++ back)

/-- A text that is not accepted is refused. -/
theorem parse_ne_ok_iff {text : String} :
    (∀ r, parse text ≠ .ok r) ↔ ∃ e, parse text = .error e := by
  cases parse text with
  | ok r => exact ⟨fun h => absurd rfl (h r), fun ⟨e, h⟩ => (by cases h)⟩
  | error e => exact ⟨fun _ => ⟨e, rfl⟩, fun _ r h => (by cases h)⟩

/-- **What an accepted text begins with is refused, unless only white space is left out.** -/
theorem parse_front_of_accepted {front back : String} {r : Registry}
    (h : parse (front ++ back) = .ok r) (hback : ¬ IsSpace back.toList) :
    ∃ e, parse front = .error e := by
  refine parse_ne_ok_iff.1 fun r' hfront => hback ?_
  obtain ⟨_, hwhole⟩ := parse_iff_document.1 h
  obtain ⟨_, hpart⟩ := parse_iff_document.1 hfront
  obtain ⟨after, hread, hafter, -⟩ := document_iff.1 hwhole
  obtain ⟨after', hread', -, -⟩ := document_iff.1 hpart
  -- both readings stop behind the same registry
  have hlonger := registry_read_append hread' back.toList
  rw [String.toList_append, hlonger] at hread
  obtain ⟨-, rfl⟩ := Outcome.ok.inj hread
  exact fun c hc => hafter c (List.mem_append_right after' hc)

/-! ## §2. Printed documents. -/

/-- A text that is too short for a document is refused at its end for that. -/
theorem parse_of_tooShort {text : String} (h : (registry.read text.toList).TooShort) :
    ∃ e, parse text = .error e ∧ e.fault.category = .endOfText
      ∧ e.position = Position.after (Bytes.ofString text) := by
  obtain ⟨fault, hdocument, hfault⟩ : (document text.toList).TooShort := tooShort_bind h _
  refine ⟨⟨fault, Position.before text 0⟩, by rw [parse, hdocument], hfault, ?_⟩
  show Position.after ((Bytes.ofString text).take ((Bytes.ofString text).length - 0)) = _
  rw [Nat.sub_zero, List.take_length]

/-- **The document of a usable registry, broken off, is refused because it ends.** -/
theorem parse_front_of_printed {r : Registry} (h : r.IsUsable) {front back : String}
    (hprint : print r = front ++ back) (hback : back ≠ "") :
    ∃ e, parse front = .error e ∧ e.fault.category = .endOfText
      ∧ e.position = Position.after (Bytes.ofString front) := by
  refine parse_of_tooShort ((takes_registry h).starved front.toList back.toList ?_ ?_)
  · have := congrArg String.toList hprint
    rwa [print, String.toList_ofList, String.toList_append] at this
  · exact fun hnil => hback (String.toList_eq_nil_iff.1 hnil)

/-! ## §3. Printed documents that are refused whole. -/

/-- The reader gives nothing on a text that begins like this. -/
def Refuses (reader : Reader α) (text : List Char) : Prop :=
  ∀ rest x left, reader (text ++ rest) ≠ .ok x left

theorem Refuses.bind {first : Reader α} {text : List Char} (h : Refuses first text)
    (next : α → Reader β) : Refuses (first >>= next) text := by
  intro rest y left hy
  obtain ⟨x, mid, hx, -⟩ := stages_of_bind hy
  exact h rest x mid hx

theorem Refuses.behind {first : Reader α} {next : α → Reader β} {text text' : List Char} {x : α}
    (hfirst : Takes first text x) (h : Refuses (next x) text') :
    Refuses (first >>= next) (text ++ text') := by
  intro rest y left hy
  rw [List.append_assoc, bind_eq_of_ok (hfirst.reads _)] at hy
  exact h rest y left hy

theorem Refuses.append {reader : Reader α} {text : List Char} (h : Refuses reader text)
    (more : List Char) : Refuses reader (text ++ more) := by
  intro rest x left
  rw [List.append_assoc]
  exact h (more ++ rest) x left

theorem Refuses.enclosed {contents : Reader α} {text : List Char} (h : Refuses contents text)
    (bracket : Bracket) : Refuses (enclosed bracket contents) text := by
  intro rest x left hx
  unfold Reader.enclosed at hx
  split at hx
  · next x' mid hcontents => exact h rest x' mid hcontents
  · cases hx
  · cases hx

/-- An entry that cannot be used is refused at its end. -/
theorem refuses_entry {e : Entry} (h : ¬ e.material.IsUsable) (depth : Nat) :
    Refuses entry (writtenEntry depth e) := by
  obtain ⟨raw, -, -, hunfit, hread⟩ := takes_rawEntry e depth
  obtain ⟨unfit, hunfit⟩ := hunfit h
  intro rest x left hx
  rw [entry, bind_eq_of_ok (hread.reads rest), hunfit] at hx
  cases hx

/-- A part that is refused, or one behind it, stops the loop. -/
theorem refuses_loop (loop : List Char → Reader α) {first : Reader β}
    {later : β → List Char → Reader α} {c : Char} {sep body more : List Char}
    (hempty : ∀ text x left, loop [] text ≠ .ok x left)
    (hturn : ∀ d bound rest,
      loop (d :: bound) (sep ++ c :: rest) = (first >>= fun x => later x bound) rest)
    (h : Refuses first body
      ∨ ∃ x, Takes first body x ∧ ∀ bound, Refuses (later x bound) more) (bound : List Char) :
    Refuses (loop bound) (sep ++ (c :: body ++ more)) := by
  intro rest y left hy
  cases bound with
  | nil => exact hempty _ y left hy
  | cons d bound =>
      rw [element_append, hturn] at hy
      rcases h with h | ⟨x, hx, h⟩
      · exact h.bind _ (more ++ rest) y left hy
      · rw [bind_eq_of_ok (hx.reads (more ++ rest))] at hy
        exact h bound rest y left hy

theorem refuses_elementsUpTo {element : Reader α} {c : Char} {written sep : List Char}
    {isFirst : Bool} (hsep : Separates isFirst sep) (hspace : isSpace c = false)
    (hcloser : c ≠ ']') {more : List Char}
    (h : Refuses element (c :: written)
      ∨ ∃ x, Takes element (c :: written) x
        ∧ ∀ bound, Refuses (elementsUpTo element bound false) more) (bound : List Char) :
    Refuses (elementsUpTo element bound isFirst) (sep ++ (c :: written ++ more)) := by
  refine refuses_loop (fun bound => elementsUpTo element bound isFirst)
    (fun _ _ _ h => by cases h) (elementsUpTo_turn element hsep hspace hcloser) ?_ bound
  rcases h with h | ⟨x, hx, h⟩
  · exact .inl h
  · exact .inr ⟨x, hx.afterFirst, fun bound => (h bound).bind _⟩

/-- A list of entries with one among them that cannot be used is refused. -/
theorem refuses_laterEntries {xs : List Entry} (h : ∃ e ∈ xs, ¬ e.material.IsUsable)
    (depth : Nat) : ∀ bound : List Char, Refuses (elementsUpTo entry bound false)
      (laterParts depth (xs.map (writtenEntry (depth + 1)))) := by
  -- up to the first entry that cannot be used all are read
  induction xs with
  | nil => obtain ⟨e, he, -⟩ := h; cases he
  | cons x xs ih =>
      intro bound
      have hrefuses : Refuses (elementsUpTo entry bound false)
          (',' :: newLine (depth + 1) ++ (writtenEntry (depth + 1) x
            ++ laterParts depth (xs.map (writtenEntry (depth + 1))))) :=
        refuses_elementsUpTo (separates_comma (depth + 1)) rfl (by decide) ?_ bound
      · rw [List.map_cons, ← List.append_nil (laterParts depth _), laterParts_cons,
          List.append_nil]
        exact hrefuses
      · by_cases hx : x.material.IsUsable
        · obtain ⟨e, he, hunfit⟩ := h
          refine .inr ⟨x, takes_entry hx (depth + 1), ih ⟨e, ?_, hunfit⟩⟩
          exact (List.mem_cons.1 he).resolve_left fun heq => hunfit (heq ▸ hx)
        · exact .inl (refuses_entry hx (depth + 1))

theorem refuses_entries {xs : List Entry} (h : ∃ e ∈ xs, ¬ e.material.IsUsable) (depth : Nat) :
    Refuses entries (' ' :: writtenArray depth (xs.map (writtenEntry (depth + 1)))) := by
  have hinside : Refuses (elements entry) (inside depth (xs.map (writtenEntry (depth + 1)))) := by
    cases xs with
    | nil => obtain ⟨e, he, -⟩ := h; cases he
    | cons x xs =>
        intro rest ys left
        refine refuses_elementsUpTo (separates_newLine (depth + 1)) rfl (by decide) ?_ _
          rest ys left
        by_cases hx : x.material.IsUsable
        · obtain ⟨e, he, hunfit⟩ := h
          refine .inr ⟨x, takes_entry hx (depth + 1), fun bound => ?_⟩
          exact (refuses_laterEntries ⟨e, (List.mem_cons.1 he).resolve_left
            fun heq => hunfit (heq ▸ hx), hunfit⟩ depth bound).append (newLine depth)
        · exact .inl (refuses_entry hx (depth + 1))
  intro rest ys left
  rw [writtenArray, block_eq]
  exact (hinside.enclosed .square).append [']'] rest ys left

theorem refuses_membersUpTo {member : σ → String → Reader σ} {before : σ} {name : String}
    {value sep more : List Char} {isFirst : Bool} (hsep : Separates isFirst sep)
    (h : Refuses (member before name) (':' :: ' ' :: value)
      ∨ ∃ between, Takes (member before name) (':' :: ' ' :: value) between
        ∧ ∀ bound, Refuses (membersUpTo member bound false between) more) (bound : List Char) :
    Refuses (membersUpTo member bound isFirst before)
      (sep ++ (writtenMember name value ++ more)) := by
  refine refuses_loop (fun bound => membersUpTo member bound isFirst before)
    (fun _ _ _ h => by cases h) (membersUpTo_turn member before hsep) ?_ bound
  rcases h with h | ⟨between, hbetween, h⟩
  · exact .inl (Refuses.behind (takes_written name) h)
  · exact .inr ⟨between, (takes_written name).bind hbetween, h⟩

/-- The field for the entries refuses what their reader refuses. -/
theorem refuses_keys {defaultName : Option (Option String)} {value : List Char}
    (h : Refuses entries (' ' :: value)) :
    Refuses (registry.member ⟨defaultName, none⟩ "keys") (':' :: ' ' :: value) :=
  fun rest s left => h.bind (fun xs => pure (⟨defaultName, some xs⟩ : RegistryDraft)) rest s left

/-- The document of a registry that cannot be used is refused whole. -/
theorem refuses_registry {r : Registry} (h : ¬ r.IsUsable) :
    Refuses registry.read (printed r) := by
  obtain ⟨defaultName, xs⟩ := r
  have hunfit : ∃ e ∈ xs, ¬ e.material.IsUsable := by
    simpa [Registry.IsUsable] using h
  have hkeys : ∀ defaultName, Refuses (registry.member ⟨defaultName, none⟩ "keys") _ :=
    fun _ => refuses_keys (refuses_entries hunfit 1)
  -- the members are read up to the one that holds the entries
  have hinside : Refuses (members registry.member registry.draft)
      (inside 0 ((writtenDefault defaultName
        ++ [("keys", writtenArray 1 (xs.map (writtenEntry 2)))]).map
          fun m => writtenMember m.1 m.2)) := by
    cases defaultName with
    | none =>
        exact fun rest => refuses_membersUpTo (separates_newLine 1) (.inl (hkeys none)) _ rest
    | some name =>
        have hdefault := (Record.takes_member rfl rfl
            ((takes_nullable (takes_string name) rfl (by decide)).map _) :
          Takes (registry.member ⟨none, none⟩ "default") _ ⟨some (some name), none⟩)
        refine fun rest => refuses_membersUpTo (separates_newLine 1) (.inr ⟨_, hdefault,
          fun bound => ?_⟩) _ rest
        refine Refuses.append ?_ (newLine 0)
        exact refuses_membersUpTo (separates_comma 1) (.inl (hkeys (some (some name)))) bound
  intro rest x left
  rw [printed, writtenObject, block_eq]
  exact (((hinside.bind _).enclosed .curly).append ['\x7d']) rest x left

/-- **Only a usable registry is accepted from its printed document**, whatever comes after it. -/
theorem isUsable_of_parse_print {r r' : Registry} {s : String}
    (h : parse (print r ++ s) = .ok r') : r.IsUsable := by
  refine Classical.byContradiction fun hunusable => ?_
  obtain ⟨_, hdocument⟩ := parse_iff_document.1 h
  obtain ⟨after, hread, -, -⟩ := document_iff.1 hdocument
  rw [String.toList_append, print, String.toList_ofList] at hread
  exact refuses_registry hunusable s.toList r' after hread

/-- **What a printed document begins with is refused, whether or not the whole is accepted.** -/
theorem parse_front_of_print {r : Registry} {front back : String}
    (hprint : print r = front ++ back) (hback : back ≠ "") : ∃ e, parse front = .error e := by
  by_cases h : r.IsUsable
  · obtain ⟨e, hparse, -⟩ := parse_front_of_printed h hprint hback
    exact ⟨e, hparse⟩
  · refine parse_ne_ok_iff.1 fun r' hfront => ?_
    obtain ⟨_, hdocument⟩ := parse_iff_document.1 hfront
    obtain ⟨after, hread, -, -⟩ := document_iff.1 hdocument
    have hwhole := registry_read_append hread back.toList
    rw [← String.toList_append, ← hprint, print, String.toList_ofList,
      ← List.append_nil (printed r)] at hwhole
    exact refuses_registry h [] r' _ hwhole

end Keyring.Document
