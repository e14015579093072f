/-
  Keyring.Proofs.Terminal
  ────────────────────────────────
  **WHAT IS WRITTEN.**

  A report is the texts of its lines, one after another.  Here each kind of
  line is spelled out: a sign and a message, a title below an empty line, a
  label with its value.  Colours come in where a text is painted and are
  told apart there: without them painted text is the text itself, and with
  them it stands between two escape sequences.

      statusText, titleText, fieldText — the texts of lines

  Main results:
    * `paint_inColor` — painted text, as long as it has no escape sequences
      of its own;
    * `report_append`, `report_successes` — reports made of others, and of
      lines of one kind.
-/
import Keyring.Terminal.Line

namespace Keyring.Terminal

/-! ## §1. Colours. -/

/-- Text without escape sequences of its own is kept as it is. -/
theorem resume_of_notMem (on : List Char) {text : List Char} (h : escapeChar ∉ text) :
    resume on text = text := by
  fun_induction resume on text with
  | case1 rest ih => exact absurd List.mem_cons_self h
  | case2 c rest hother ih => rw [ih fun hmem => h (List.mem_cons_of_mem c hmem)]
  | case3 => rfl

/-- **In colour a text stands between the sequence of its style and the one that ends it.** -/
theorem paint_inColor (style : Style) {text : String} (h : escapeChar ∉ text.toList) :
    paint true style text = String.ofList style.on ++ text ++ String.ofList off := by
  unfold paint
  rw [if_pos rfl, resume_of_notMem style.on h, String.ofList_append, String.ofList_append,
    String.ofList_toList]

/-! ## §2. Lines. -/

variable (inColor : Bool)

/-- A sign in its colour and a message. -/
def statusText (style : Style) (sign message : String) : String :=
  "  " ++ paint inColor style sign ++ " " ++ message ++ "\n"

/-- A title below an empty line. -/
def titleText (title : String) : String :=
  "\n" ++ paint inColor .bold title ++ "\n"

/-- A label, which fills its columns, and a value. -/
def fieldText (label value : String) : String :=
  "  " ++ paint inColor .dimmed label ++ value ++ "\n"

/-! ## §3. Reports. -/

theorem report_nil : report inColor [] = "" := rfl

theorem report_cons (line : Line) (lines : List Line) :
    report inColor (line :: lines) = line.text inColor ++ report inColor lines := by
  unfold report
  rw [List.map_cons, String.join_cons]

theorem report_append (first second : List Line) :
    report inColor (first ++ second) = report inColor first ++ report inColor second := by
  unfold report
  rw [List.map_append, String.join_append]

/-- **What was done is reported message by message, each behind a tick.** -/
theorem report_successes (messages : List String) :
    report inColor (messages.map .success)
      = String.join (messages.map (statusText inColor .green "✓")) := by
  unfold report
  rw [List.map_map]
  rfl

end Keyring.Terminal
