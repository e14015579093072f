/-
  Keyring.Proofs.Settings
  ────────────────────────────────
  **WHAT A CONFIGURATION HOLDS.**

  A configuration is kept as pairs in the order of their keys.  Seen from
  outside it is a map, and its two ways of being built say what it maps:

      (c.insert k v).get? k'  — `v` at `k`, and `c.get? k'` anywhere else
      (ofList ps).get? k      — the value of the last pair of `ps` with key `k`

  Nothing else tells two configurations apart, so the order in which pairs
  with different keys are put in does not count.

  Main results:
    * `Config.get?_insert`, `Config.get?_ofList` — these two;
    * `Config.ext_get?` — a configuration is what it maps to what;
    * `Config.ofList_of_perm` — its pairs make it up in any order.
-/
import Keyring.Config
import Mathlib.Data.List.Induction
import Mathlib.Data.List.Nodup
import Mathlib.Data.List.Perm.Basic

namespace Keyring

/-! ## §1. One pair. -/

/-- Looking for a key after a pair was put in its place. -/
theorem find?_insertSetting (key value key' : String) (pairs : List Setting) :
    (insertSetting key value pairs).find? (fun p => p.1 == key')
      = if key = key' then some (key, value) else pairs.find? fun p => p.1 == key' := by
  -- on the pairs that are passed by on the way to the place of the key
  induction pairs with
  | nil =>
      by_cases hkey : key = key'
      · rw [if_pos hkey, insertSetting, List.find?_cons_of_pos (by simp [hkey])]
      · rw [if_neg hkey, insertSetting, List.find?_cons_of_neg (by simp [hkey])]
  | cons p rest ih =>
      obtain ⟨k, v⟩ := p
      rw [insertSetting]
      split
      · next hlt =>
        by_cases hkey : key = key'
        · rw [if_pos hkey, List.find?_cons_of_pos (by simp [hkey])]
        · rw [if_neg hkey, List.find?_cons_of_neg (by simp [hkey])]
      · split
        · next heq =>
          subst heq
          by_cases hkey : key = key'
          · rw [if_pos hkey, List.find?_cons_of_pos (by simp [hkey])]
          · rw [if_neg hkey, List.find?_cons_of_neg (by simp [hkey]),
              List.find?_cons_of_neg (by simp [hkey])]
        · next hne =>
          by_cases hk : k = key'
          -- the pair that is passed by has the key that is looked for, which is then another
          · rw [List.find?_cons_of_pos (by simp [hk]), if_neg (fun h => hne (h.trans hk.symm)),
              List.find?_cons_of_pos (by simp [hk])]
          · rw [List.find?_cons_of_neg (by simp [hk]), ih,
              List.find?_cons_of_neg (by simp [hk])]

namespace Config

/-! ## §2. What a configuration maps to what. -/

/-- **A pair that is put in counts for its own key and for no other.** -/
theorem get?_insert (c : Config) (key value key' : String) :
    (c.insert key value).get? key' = if key = key' then some value else c.get? key' := by
  rw [get?, insert, find?_insertSetting]
  split <;> rfl

theorem ofList_concat (pairs : List Setting) (p : Setting) :
    ofList (pairs ++ [p]) = (ofList pairs).insert p.1 p.2 := by
  rw [ofList, List.foldl_append]
  rfl

/-- **Of the pairs with one key the last counts.** -/
theorem get?_ofList (pairs : List Setting) (key : String) :
    (ofList pairs).get? key = (pairs.reverse.find? fun p => p.1 == key).map (·.2) := by
  -- on the pairs from the last one back, as each is put in after those before it
  induction pairs using List.reverseRecOn with
  | nil => rfl
  | append_singleton pairs p ih =>
      rw [ofList_concat, get?_insert, List.reverse_append, List.reverse_singleton,
        List.singleton_append]
      by_cases hkey : p.1 = key
      · rw [if_pos hkey, List.find?_cons_of_pos (by simp [hkey])]
        rfl
      · rw [if_neg hkey, ih, List.find?_cons_of_neg (by simp [hkey])]

/-- A key is mapped to its value in the last pair that has it. -/
theorem get?_ofList_eq_some_iff (pairs : List Setting) (key value : String) :
    (ofList pairs).get? key = some value ↔ ∃ before after,
      pairs = before ++ (key, value) :: after ∧ ∀ p ∈ after, p.1 ≠ key := by
  rw [get?_ofList, Option.map_eq_some_iff]
  constructor
  · rintro ⟨⟨k, v⟩, hfind, hvalue⟩
    obtain ⟨hkey, after, before, hpairs, hafter⟩ := List.find?_eq_some_iff_append.1 hfind
    obtain rfl : k = key := by simpa using hkey
    obtain rfl : v = value := hvalue
    refine ⟨before.reverse, after.reverse, ?_, fun p hp => ?_⟩
    · rw [← List.reverse_reverse pairs, hpairs]
      simp
    · simpa using hafter p (List.mem_reverse.1 hp)
  · rintro ⟨before, after, rfl, hafter⟩
    refine ⟨(key, value), List.find?_eq_some_iff_append.2 ⟨by simp, after.reverse,
      before.reverse, by simp, fun p hp => ?_⟩, rfl⟩
    simpa using hafter p (List.mem_reverse.1 hp)

/-! ## §3. The pairs, in any order. -/

theorem nodup_keys (c : Config) : (c.toList.map (·.1)).Nodup := by
  rw [List.Nodup, List.pairwise_map]
  refine c.ascending.imp ?_
  intro p q hlt heq
  rw [heq] at hlt
  exact String.lt_irrefl q.1 hlt

/-- Where each key stands once, the pairs say what is mapped to what. -/
theorem get?_ofList_of_nodup {pairs : List Setting} (h : (pairs.map (·.1)).Nodup)
    (key value : String) : (ofList pairs).get? key = some value ↔ (key, value) ∈ pairs := by
  rw [get?_ofList_eq_some_iff]
  constructor
  · rintro ⟨before, after, rfl, -⟩
    exact List.mem_append_right before List.mem_cons_self
  · intro hmem
    obtain ⟨before, after, rfl⟩ := List.append_of_mem hmem
    refine ⟨before, after, rfl, fun p hp heq => ?_⟩
    rw [List.map_append, List.map_cons, List.nodup_middle, List.nodup_cons] at h
    exact h.1 (List.mem_append_right _ (List.mem_map.2 ⟨p, hp, heq⟩))

theorem get?_eq_some_iff (c : Config) (key value : String) :
    c.get? key = some value ↔ (key, value) ∈ c.toList := by
  unfold get? toList
  rw [Option.map_eq_some_iff]
  constructor
  · rintro ⟨⟨k, v⟩, hfind, rfl⟩
    obtain rfl : k = key := by simpa using List.find?_some hfind
    exact List.mem_of_find?_eq_some hfind
  · intro hmem
    obtain ⟨before, after, hpairs⟩ := List.append_of_mem hmem
    -- the keys before it are less, so that it is the first of its key
    refine ⟨(key, value), List.find?_eq_some_iff_append.2 ⟨by simp, before, after, hpairs,
      fun p hp => ?_⟩, rfl⟩
    have hascending : Ascending (before ++ (key, value) :: after) := hpairs ▸ c.ascending
    have hlt : p.1 < key :=
      (List.pairwise_append.1 hascending).2.2 p hp (key, value) List.mem_cons_self
    have hne : p.1 ≠ key := fun heq => String.lt_irrefl key (heq ▸ hlt)
    simpa using hne

/-- **A configuration is what it maps to what.** -/
theorem ext_get? {c d : Config}
    (h : ∀ key value, c.get? key = some value ↔ d.get? key = some value) :
    c = d := by
  refine Config.ext (List.Perm.eq_of_pairwise ?_ c.ascending d.ascending ?_)
  · exact fun p q _ _ hlt hgt => absurd hgt (String.lt_asymm hlt)
  · refine (List.perm_ext_iff_of_nodup ?_ ?_).2 fun p => ?_
    · exact (List.Nodup.of_map _ c.nodup_keys)
    · exact (List.Nodup.of_map _ d.nodup_keys)
    · show p ∈ c.toList ↔ p ∈ d.toList
      rw [← get?_eq_some_iff, ← get?_eq_some_iff, h]

/-- **The pairs of a configuration make it up in any order.** -/
theorem ofList_of_perm {c : Config} {pairs : List Setting} (h : pairs.Perm c.toList) :
    ofList pairs = c := by
  have hnodup : (pairs.map (·.1)).Nodup := (h.map _).nodup_iff.2 c.nodup_keys
  refine ext_get? fun key value => ?_
  rw [get?_ofList_of_nodup hnodup, get?_eq_some_iff, h.mem_iff]

end Config

end Keyring
