/-
  Keyring.Proofs.Store.Truncation
  ────────────────────────────────
  **A DOCUMENT THAT WAS CUT OFF IS NOT LOADED.**

  The bytes of a saved document may be cut anywhere before its closing
  brace: between two characters, and then what is left is a text that is
  no document; or inside a character, and then it is no text.  In neither
  case is anything loaded, and above all no registry with fewer entries.

  Main results:
    * `Bytes.exists_eq_append` — a text whose bytes begin another's is the
      beginning of that text;
    * `load_cut_document` — cut documents in a store;
    * `truncated_document_refused` — these, and cut texts of any layout.
-/
import Keyring.Proofs.Document.Truncation
import Keyring.Proofs.Store.Requests

namespace Keyring

open Document

/-! ## §1. Bytes at the front of a text. -/

namespace Bytes

theorem eq_of_toString?_eq_some {content : Bytes} {text : String}
    (h : content.toString? = some text) : content = ofString text := by
  unfold toString? String.fromUTF8? at h
  split at h
  · cases h
    rfl
  · cases h

/-- **A text whose bytes begin those of another is the beginning of that text.** -/
theorem exists_eq_append {front text : String} (h : ofString front <+: ofString text) :
    ∃ back, text = front ++ back := by
  obtain ⟨rest, hrest⟩ := h
  have hbytes : front.toList.utf8Encode ++ ⟨rest.toArray⟩ = text.toList.utf8Encode := by
    rw [String.utf8Encode_toList, String.utf8Encode_toList]
    refine ByteArray.ext (Array.toList_inj.1 ?_)
    rw [ByteArray.data_append, Array.toList_append]
    exact hrest
  obtain ⟨chars, hchars⟩ := List.isPrefix_of_utf8Encode_append_eq_utf8Encode _ hbytes
  refine ⟨String.ofList chars, String.toList_inj.1 ?_⟩
  rw [String.toList_append, String.toList_ofList, hchars]

/-- The bytes are those of whole characters at the front of the text. -/
def EndsBetween (content : Bytes) (text : String) : Prop :=
  ∃ front back : String, text = front ++ back ∧ content = ofString front

end Bytes

/-! ## §2. Cut documents. -/

/-- **A saved document without its closing brace, the last byte printed, is not loaded.** -/
theorem load_cut_document {s : Store} {fs : FileSystem} {r : Registry} {content : Bytes}
    (hcut : content <+: Store.encode r)
    (hshort : content.length < (Bytes.ofString (print r)).length)
    (hread : fs.read s.path = .ok content) :
    (content.EndsBetween (print r) →
      ∃ e, runOn s.load fs = (.error (.malformedDocument s.path e), fs))
    ∧ (¬ content.EndsBetween (print r) → runOn s.load fs = (.error (.io .notText), fs)) := by
  have hcut : content <+: Bytes.ofString (print r) := by
    rw [Store.encode, Bytes.ofString_append] at hcut
    exact List.prefix_of_prefix_length_le hcut (List.prefix_append _ _) (Nat.le_of_lt hshort)
  have hloaded : s.loaded fs = s.decode content := by rw [Store.loaded, hread]
  refine ⟨?_, fun hinside => ?_⟩
  · rintro ⟨front, back, hprint, rfl⟩
    have hback : back ≠ "" := by
      rintro rfl
      rw [String.append_empty] at hprint
      rw [hprint] at hshort
      exact Nat.lt_irrefl _ hshort
    obtain ⟨e, hparse⟩ := parse_front_of_print hprint hback
    refine ⟨e, ?_⟩
    rw [load_run, hloaded]
    simp only [Store.decode, Bytes.toString?_ofString, hparse]
  · -- bytes that are a text would be those of whole characters
    have hnone : content.toString? = none := by
      cases htext : content.toString? with
      | none => rfl
      | some text =>
          have hcontent := Bytes.eq_of_toString?_eq_some htext
          obtain ⟨back, hprint⟩ := Bytes.exists_eq_append (hcontent ▸ hcut)
          exact absurd ⟨text, back, hprint, hcontent⟩ hinside
    rw [load_run, hloaded]
    simp only [Store.decode, hnone]

/-- White space at the end of a document is not what a cut leaves out. -/
theorem exists_append_of_append_space {text space front back : String}
    (hspace : IsSpace space.toList) (h : front ++ back = text ++ space)
    (hback : ¬ IsSpace back.toList) : ∃ rest, text = front ++ rest ∧ rest ≠ "" := by
  have hlist : text.toList ++ space.toList = front.toList ++ back.toList := by
    rw [← String.toList_append, ← String.toList_append, h]
  obtain ⟨between, -, hmore⟩ | ⟨between, htext, hbetween⟩ := Reader.breaks_off hlist
  · refine absurd (fun c hc => hspace c ?_) hback
    rw [hmore]
    exact List.mem_append_right between hc
  · refine ⟨String.ofList between, String.toList_inj.1 ?_, fun hnil => hbetween ?_⟩
    · rw [String.toList_append, String.toList_ofList, htext]
    · have := congrArg String.toList hnil
      rwa [String.toList_ofList] at this

/-- **A document that was cut off is never taken for a registry.**  A text that is accepted is
refused when it is cut before its last character that is no white space, and if it was printed
it is refused because it ends, at its end.  A document that was saved, accepted or not, is not
loaded when its bytes are cut before the closing brace: it is malformed, or no text if a
character was cut. -/
theorem truncated_document_refused :
    (∀ (front back : String) (r : Registry), parse (front ++ back) = .ok r →
      ¬ IsSpace back.toList → ∃ e, parse front = .error e
        ∧ ∀ (printed : Registry) (space : String), IsSpace space.toList →
          front ++ back = print printed ++ space → e.fault.category = .endOfText
            ∧ e.position = Position.after (Bytes.ofString front))
    ∧ ∀ (s : Store) (fs : FileSystem) (r : Registry) (content : Bytes),
      content <+: Store.encode r → content.length < (Bytes.ofString (print r)).length →
      fs.read s.path = .ok content →
        (content.EndsBetween (print r) →
          ∃ e, runOn s.load fs = (.error (.malformedDocument s.path e), fs))
        ∧ (¬ content.EndsBetween (print r) → runOn s.load fs = (.error (.io .notText), fs)) := by
  refine ⟨fun front back r haccepted hback => ?_,
    fun s fs r content hcut hshort hread => load_cut_document hcut hshort hread⟩
  obtain ⟨e, hfront⟩ := parse_front_of_accepted haccepted hback
  refine ⟨e, hfront, fun printed space hspace hprinted => ?_⟩
  rw [hprinted] at haccepted
  have husable := isUsable_of_parse_print haccepted
  obtain ⟨rest, hprint, hrest⟩ := exists_append_of_append_space hspace hprinted hback
  obtain ⟨e', hparse, hcategory, hposition⟩ := parse_front_of_printed husable hprint hrest
  cases hfront.symm.trans hparse
  exact ⟨hcategory, hposition⟩

/-- A registry with a character of two bytes near the front of its document. -/
def accentedKey : Registry where
  defaultName := some "é"
  entries := [⟨"é", .pluginKey ⟨"i", "p", .empty⟩⟩]

/-- Its document as far as that character. -/
def accentedFront : String := "\x7b\n  \"default\": \"é"

/-- The rest of its document. -/
def accentedBack : String :=
  "\",\n  \"keys\": [\n    \x7b\n      \"name\": \"é\",\n      \"externalKey\": \x7b\n"
    ++ "        \"id\": \"i\",\n        \"pluginName\": \"p\"\n      \x7d\n    \x7d\n  ]\n\x7d"

/-- The store of a document `k`. -/
def cutStore : Store := ⟨.ofString "k"⟩

/-- A tree with these bytes in the document `k`. -/
def cutTree (content : Bytes) : FileSystem where
  nodes := [([Bytes.ofString "k"], .file content 0o644)]
  workingFolder := []

/-- **A document cut after its first name, and one cut inside that name.** -/
theorem accentedKey_cut_refused :
    (∃ e, parse accentedFront = .error e ∧ e.fault.category = .endOfText
      ∧ e.position = Position.after (Bytes.ofString accentedFront))
    ∧ (∃ e, runOn cutStore.load (cutTree (Bytes.ofString accentedFront))
      = (.error (.malformedDocument cutStore.path e), cutTree (Bytes.ofString accentedFront)))
    ∧ runOn cutStore.load (cutTree (Bytes.ofString accentedFront).dropLast)
      = (.error (.io .notText), cutTree (Bytes.ofString accentedFront).dropLast) := by
  have hprint : print accentedKey = accentedFront ++ accentedBack := by decide +kernel
  obtain ⟨hrefused, hload⟩ := truncated_document_refused
  obtain ⟨e, hparse, hends⟩ :=
    hrefused accentedFront accentedBack accentedKey (by decide +kernel) (by decide +kernel)
  have hbetween := hload cutStore (cutTree (Bytes.ofString accentedFront)) accentedKey
    (Bytes.ofString accentedFront) (by decide +kernel) (by decide +kernel) (by decide +kernel)
  have hinside := hload cutStore (cutTree (Bytes.ofString accentedFront).dropLast) accentedKey
    (Bytes.ofString accentedFront).dropLast (by decide +kernel) (by decide +kernel)
    (by decide +kernel)
  refine ⟨⟨e, hparse, hends accentedKey "" (by decide) ?_⟩, hbetween.1 ⟨_, _, hprint, rfl⟩,
    hinside.2 ?_⟩
  · rw [hprint, String.append_empty]
  · rintro ⟨front, -, -, hfront⟩
    have htext : Bytes.toString? (Bytes.ofString accentedFront).dropLast = none := by
      decide +kernel
    rw [hfront, Bytes.toString?_ofString] at htext
    cases htext

end Keyring
