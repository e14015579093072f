/-
  Keyring.Config
  ────────────────────────────────
  **THE CONFIGURATION OF A SIGNING PLUGIN.**

  A finite map from keys to values.  It is held as its pairs in ascending
  order of the keys (by code point), each key once, and carries the proof
  of that order: two configurations with the same pairs are equal, and the
  order in which the pairs are listed is the order in which they are
  printed.

      c.insert k v  — the map that sends `k` to `v` and agrees with `c` elsewhere
      ofList ps     — the pairs of `ps`; of two with one key the later counts
-/

namespace Keyring

/-! ## §1. Pairs in ascending order. -/

/-- A key with its value. -/
abbrev Setting := String × String

/-- The keys stand in strictly ascending order. -/
def Ascending (pairs : List Setting) : Prop :=
  pairs.Pairwise fun a b => a.1 < b.1

/-- Puts a pair in its place; a pair with the same key makes way. -/
def insertSetting (key value : String) : List Setting → List Setting
  | [] => [(key, value)]
  | (k, v) :: rest =>
    if key < k then (key, value) :: (k, v) :: rest
    else if key = k then (key, value) :: rest
    else (k, v) :: insertSetting key value rest

theorem mem_insertSetting {key value : String} {p : Setting} :
    ∀ {pairs : List Setting},
      p ∈ insertSetting key value pairs → p = (key, value) ∨ p ∈ pairs
  | [], h => by simp_all [insertSetting]
  | (k, v) :: rest, h => by
    have ih := @mem_insertSetting key value p rest
    grind [insertSetting]

theorem ascending_insertSetting (key value : String) :
    ∀ {pairs : List Setting}, Ascending pairs → Ascending (insertSetting key value pairs)
  | [], _ => by simp [insertSetting, Ascending]
  | (k, v) :: rest, h => by
    have ih := @ascending_insertSetting key value rest
    simp only [Ascending, List.pairwise_cons] at h ih
    obtain ⟨hk, hrest⟩ := h
    simp only [insertSetting]
    split
    · next hlt =>
      simp only [Ascending, List.pairwise_cons, List.mem_cons]
      refine ⟨?_, hk, hrest⟩
      rintro b (rfl | hb)
      · exact hlt
      · exact String.lt_trans hlt (hk b hb)
    · split
      · next heq =>
        subst heq
        simp only [Ascending, List.pairwise_cons]
        exact ⟨hk, hrest⟩
      · next hnlt hne =>
        simp only [Ascending, List.pairwise_cons]
        refine ⟨?_, ih hrest⟩
        intro b hb
        rcases mem_insertSetting hb with rfl | hb
        · exact Std.lt_of_le_of_ne (String.not_lt.1 hnlt) (Ne.symm hne)
        · exact hk b hb

/-! ## §2. The map. -/

/-- A finite map from keys to values, listed in ascending order of the keys. -/
structure Config where
  /-- The pairs, each key once. -/
  pairs : List Setting
  /-- The keys ascend. -/
  ascending : Ascending pairs
  deriving DecidableEq

namespace Config

/-- Configurations with the same pairs are equal. -/
@[ext] theorem ext {c d : Config} (h : c.pairs = d.pairs) : c = d := by
  cases c; cases d; simp_all

/-- The configuration without a pair. -/
def empty : Config := ⟨[], List.Pairwise.nil⟩

instance : Inhabited Config := ⟨empty⟩

/-- Sends `key` to `value` and leaves every other key as it was. -/
def insert (c : Config) (key value : String) : Config :=
  ⟨insertSetting key value c.pairs, ascending_insertSetting key value c.ascending⟩

/-- The map of a list of pairs; of two pairs with one key the later counts. -/
def ofList (pairs : List Setting) : Config :=
  pairs.foldl (fun c p => c.insert p.1 p.2) empty

/-- The pairs in ascending order of their keys. -/
def toList (c : Config) : List Setting := c.pairs

/-- No pair at all. -/
def isEmpty (c : Config) : Bool := c.pairs.isEmpty

/-- The value of a key, if it has one. -/
def get? (c : Config) (key : String) : Option String :=
  (c.pairs.find? fun p => p.1 == key).map (·.2)

end Config

end Keyring
