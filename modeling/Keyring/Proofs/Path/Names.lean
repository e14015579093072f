/-
  Keyring.Proofs.Path.Names
  ────────────────────────────────
  **A PATH BY ITS NAMES.**

  All that a file system makes of a path is where it starts and which names
  it has.  This module says what the operations on the text of a path do to
  its names, so that nothing else needs to look at slashes.

  Main results:
    * `names_push` — a segment pushed is one more name at the end;
    * `parent?_eq_some` — the parent has all names but the last, and
      starts where the path starts;
    * `names_of_mem_ancestors` — whatever is above it has its first names.
-/
import Keyring.Path
import Mathlib.Data.List.DropRight

namespace Keyring

/-! ## §1. Cutting and joining. -/

theorem cutAtSlashes_ne_nil (bytes : Bytes) : cutAtSlashes bytes ≠ [] := by
  cases bytes with
  | nil => simp [cutAtSlashes]
  | cons byte rest =>
      unfold cutAtSlashes
      split
      · simp
      · split <;> simp

/-- A slash between two byte sequences cuts them apart. -/
theorem cutAtSlashes_append (front back : Bytes) :
    cutAtSlashes (front ++ slash :: back) = cutAtSlashes front ++ cutAtSlashes back := by
  induction front with
  | nil => simp [cutAtSlashes]
  | cons byte front ih =>
      show cutAtSlashes (byte :: (front ++ slash :: back)) = cutAtSlashes (byte :: front) ++ _
      rw [cutAtSlashes, cutAtSlashes, ih]
      by_cases hbyte : byte = slash
      · rw [if_pos hbyte, if_pos hbyte]
        rfl
      · rw [if_neg hbyte, if_neg hbyte]
        cases hcut : cutAtSlashes front with
        | nil => exact absurd hcut (cutAtSlashes_ne_nil front)
        | cons piece pieces => rfl

/-- Bytes without a slash are one piece. -/
theorem cutAtSlashes_of_not_mem {bytes : Bytes} (h : slash ∉ bytes) :
    cutAtSlashes bytes = [bytes] := by
  induction bytes with
  | nil => rfl
  | cons byte rest ih =>
      rw [List.mem_cons, not_or] at h
      rw [cutAtSlashes, if_neg (Ne.symm h.1), ih h.2]

/-- No piece holds a slash. -/
theorem slash_not_mem_of_mem_cutAtSlashes {bytes piece : Bytes}
    (h : piece ∈ cutAtSlashes bytes) : slash ∉ piece := by
  induction bytes generalizing piece with
  | nil =>
      rw [cutAtSlashes, List.mem_singleton] at h
      simp [h]
  | cons byte rest ih =>
      rw [cutAtSlashes] at h
      -- a slash begins a new piece, and any other byte goes to the first one
      split at h
      · rcases List.mem_cons.1 h with rfl | h
        · simp
        · exact ih h
      · next hbyte =>
        cases hcut : cutAtSlashes rest with
        | nil => exact absurd hcut (cutAtSlashes_ne_nil rest)
        | cons first pieces =>
            rw [hcut] at h ih
            rcases List.mem_cons.1 h with rfl | h
            · rw [List.mem_cons, not_or]
              exact ⟨Ne.symm hbyte, ih List.mem_cons_self⟩
            · exact ih (List.mem_cons_of_mem _ h)

/-- Pieces that are joined are found again by cutting. -/
theorem cutAtSlashes_join (first : Bytes) (pieces : List Bytes)
    (h : ∀ piece ∈ first :: pieces, slash ∉ piece) :
    cutAtSlashes (joinWithSlashes (first :: pieces)) = first :: pieces := by
  induction pieces generalizing first with
  | nil =>
      have hfirst : joinWithSlashes [first] = first := by simp [joinWithSlashes]
      rw [hfirst, cutAtSlashes_of_not_mem (h first List.mem_cons_self)]
  | cons second pieces ih =>
      have hjoin : joinWithSlashes (first :: second :: pieces)
          = first ++ slash :: joinWithSlashes (second :: pieces) := by
        simp [joinWithSlashes, List.intercalate_cons_cons]
      rw [hjoin, cutAtSlashes_append, cutAtSlashes_of_not_mem (h first List.mem_cons_self),
        ih second (fun piece hpiece => h piece (List.mem_cons_of_mem _ hpiece))]
      rfl

/-- Bytes are cut into one piece, or there is a last slash. -/
theorem no_slash_or_last_slash (bytes : Bytes) :
    slash ∉ bytes ∨ ∃ front back, bytes = front ++ slash :: back ∧ slash ∉ back := by
  by_cases h : slash ∈ bytes
  · -- the last slash is the first of the reversed bytes
    right
    obtain ⟨back, front, hreverse, hback⟩ :=
      List.eq_append_cons_of_mem (List.mem_reverse.2 h)
    refine ⟨front.reverse, back.reverse, ?_, by simpa using hback⟩
    rw [← List.reverse_reverse bytes, hreverse]
    simp
  · exact .inl h

namespace Path

/-! ## §2. Names among segments. -/

/-- The segments that name something. -/
def namesAmong (segments : List Bytes) : List Bytes :=
  segments.filter fun segment => !isIdle segment

theorem names_eq (p : Path) : p.names = namesAmong p.segments := rfl

@[simp] theorem namesAmong_nil : namesAmong [] = [] := rfl

@[simp] theorem namesAmong_append (front back : List Bytes) :
    namesAmong (front ++ back) = namesAmong front ++ namesAmong back :=
  List.filter_append front back

theorem namesAmong_idem (segments : List Bytes) :
    namesAmong (namesAmong segments) = namesAmong segments := by
  unfold namesAmong
  rw [List.filter_filter]
  simp

theorem namesAmong_cons_of_idle {segment : Bytes} (h : isIdle segment = true)
    (segments : List Bytes) : namesAmong (segment :: segments) = namesAmong segments := by
  simp [namesAmong, h]

theorem namesAmong_cons_of_name {segment : Bytes} (h : isIdle segment = false)
    (segments : List Bytes) :
    namesAmong (segment :: segments) = segment :: namesAmong segments := by
  simp [namesAmong, h]

@[simp] theorem isIdle_nil : isIdle [] = true := rfl

@[simp] theorem isIdle_dot : isIdle dot = true := rfl

theorem isIdle_iff (segment : Bytes) : isIdle segment = true ↔ segment = [] ∨ segment = dot := by
  simp [isIdle]

/-- What is dropped at the end names nothing. -/
theorem namesAmong_dropIdle (segments : List Bytes) :
    namesAmong (dropIdle segments) = namesAmong segments := by
  induction segments using List.reverseRecOn with
  | nil => rfl
  | append_singleton segments last ih =>
      show namesAmong (List.rdropWhile isIdle (segments ++ [last])) = _
      rw [List.rdropWhile_concat]
      split
      · next hlast =>
        rw [show List.rdropWhile isIdle segments = dropIdle segments from rfl, ih,
          namesAmong_append, namesAmong_cons_of_idle hlast, namesAmong_nil, List.append_nil]
      · rfl

/-- What is left ends in a name. -/
theorem dropIdle_cases (segments : List Bytes) :
    dropIdle segments = [] ∨ ∃ front last, dropIdle segments = front ++ [last]
      ∧ isIdle last = false := by
  induction segments using List.reverseRecOn with
  | nil => exact .inl rfl
  | append_singleton segments last ih =>
      have hconcat : dropIdle (segments ++ [last])
          = if isIdle last = true then dropIdle segments else segments ++ [last] :=
        List.rdropWhile_concat isIdle segments last
      rw [hconcat]
      split
      · exact ih
      · next hlast => exact .inr ⟨segments, last, rfl, by simpa using hlast⟩

/-! ## §3. Down. -/

/-- A segment that is pushed is a segment more at the end. -/
theorem segments_push (p : Path) {segment : Bytes} (h : slash ∉ segment) :
    ∃ front, (p.push segment).segments = front ++ [segment] ∧ front <+: p.segments
      ∧ namesAmong front = p.names := by
  unfold push
  split
  · next hend =>
    -- a slash is added only where neither the path is empty nor one stands at its end
    rcases Bool.or_eq_true_iff.1 hend with hempty | hslash
    · have hbytes : p.bytes = [] := List.isEmpty_iff.1 hempty
      refine ⟨[], ?_, List.nil_prefix, ?_⟩
      · show cutAtSlashes (p.bytes ++ segment) = _
        rw [hbytes, List.nil_append, cutAtSlashes_of_not_mem h]
        rfl
      · rw [names_eq, segments, hbytes]
        rfl
    · obtain ⟨front, hbytes⟩ := List.getLast?_eq_some_iff.1 (beq_iff_eq.1 hslash)
      refine ⟨cutAtSlashes front, ?_, ?_, ?_⟩
      · show cutAtSlashes (p.bytes ++ segment) = _
        rw [hbytes, List.append_assoc, List.singleton_append, cutAtSlashes_append,
          cutAtSlashes_of_not_mem h]
      · rw [segments, hbytes, cutAtSlashes_append]
        exact List.prefix_append _ _
      · rw [names_eq, segments, hbytes, cutAtSlashes_append, namesAmong_append]
        exact (List.append_nil _).symm
  · refine ⟨p.segments, ?_, List.prefix_refl _, rfl⟩
    rw [segments, cutAtSlashes_append, cutAtSlashes_of_not_mem h]
    rfl

/-- A segment that is pushed is a name more at the end. -/
theorem names_push (p : Path) {segment : Bytes} (h : slash ∉ segment)
    (hname : isIdle segment = false) : (p.push segment).names = p.names ++ [segment] := by
  obtain ⟨front, hsegments, -, hfront⟩ := p.segments_push h
  rw [names_eq, hsegments, namesAmong_append, hfront, namesAmong_cons_of_name hname]
  rfl

/-- A path whose last piece is empty ends in a slash, unless it is empty itself. -/
theorem endsInSlash_of_segments {p : Path} {front : List Bytes}
    (h : p.segments = front ++ [[]]) (hempty : p.isEmpty = false) : p.endsInSlash = true := by
  obtain ⟨bytes⟩ := p
  change cutAtSlashes bytes = _ at h
  rcases no_slash_or_last_slash bytes with hslash | ⟨before, after, rfl, hslash⟩
  · rw [cutAtSlashes_of_not_mem hslash] at h
    have hlast : [bytes] = [[]] :=
      (List.append_inj' (show [] ++ [bytes] = front ++ [[]] from h) rfl).2
    rw [List.singleton_inj.1 hlast] at hempty
    cases hempty
  · rw [cutAtSlashes_append, cutAtSlashes_of_not_mem hslash] at h
    have hlast : [after] = [[]] := (List.append_inj' h rfl).2
    rw [List.singleton_inj.1 hlast]
    simp [endsInSlash]

theorem isAbsolute_push {p : Path} (h : p.isAbsolute = true) (segment : Bytes) :
    (p.push segment).isAbsolute = true := by
  obtain ⟨bytes⟩ := p
  cases bytes with
  | nil => cases h
  | cons byte rest =>
      unfold push
      split <;> exact h

theorem endsInSlash_push (p : Path) {segment : Bytes} (hne : segment ≠ []) (h : slash ∉ segment) :
    (p.push segment).endsInSlash = false := by
  have hlast : ∀ front : Bytes, (front ++ segment).getLast? ≠ some slash := by
    intro front hs
    rw [List.getLast?_append_of_ne_nil _ hne] at hs
    exact h (List.mem_of_getLast? hs)
  unfold push endsInSlash
  split
  · simpa using hlast p.bytes
  · have hslash := hlast (p.bytes ++ [slash])
    simpa using hslash

/-! ## §4. Up. -/

theorem slash_not_mem_segments {p : Path} {segment : Bytes} (h : segment ∈ p.segments) :
    slash ∉ segment := slash_not_mem_of_mem_cutAtSlashes h

/-- A path is absolute if an empty piece comes before its first slash. -/
theorem isAbsolute_of_segments {p : Path} {body : List Bytes} (h : p.segments = [] :: body)
    (hbody : body ≠ []) : p.isAbsolute = true := by
  obtain ⟨bytes⟩ := p
  change cutAtSlashes bytes = _ at h
  cases bytes with
  | nil =>
      cases h
      exact absurd rfl hbody
  | cons byte rest =>
      rw [cutAtSlashes] at h
      split at h
      · next hbyte => simp [isAbsolute, hbyte]
      · split at h <;> cases h

theorem segments_of_isAbsolute {p : Path} (h : p.isAbsolute = true) :
    ∃ body, p.segments = [] :: body ∧ body ≠ [] := by
  obtain ⟨bytes⟩ := p
  cases bytes with
  | nil => cases h
  | cons byte rest =>
      have hbyte : byte = slash := by simpa [isAbsolute] using h
      refine ⟨cutAtSlashes rest, ?_, cutAtSlashes_ne_nil rest⟩
      show cutAtSlashes (byte :: rest) = _
      rw [cutAtSlashes, if_pos hbyte]

theorem names_join {kept : List Bytes} (h : ∀ piece ∈ kept, slash ∉ piece) :
    names ⟨joinWithSlashes kept⟩ = namesAmong kept := by
  cases kept with
  | nil => rfl
  | cons first pieces =>
      show namesAmong (cutAtSlashes _) = _
      rw [cutAtSlashes_join first pieces h]

theorem names_slash_join {kept : List Bytes} (h : ∀ piece ∈ kept, slash ∉ piece) :
    names ⟨slash :: joinWithSlashes kept⟩ = namesAmong kept := by
  show namesAmong (cutAtSlashes (slash :: joinWithSlashes kept)) = _
  rw [cutAtSlashes, if_pos rfl, namesAmong_cons_of_idle isIdle_nil]
  exact names_join h

/-- Pieces of which the first is a name, if there is one, join to a relative path. -/
theorem isAbsolute_join {kept : List Bytes} (h : ∀ piece ∈ kept, slash ∉ piece)
    (hfirst : kept.head? ≠ some []) : isAbsolute ⟨joinWithSlashes kept⟩ = false := by
  cases hp : isAbsolute ⟨joinWithSlashes kept⟩ with
  | false => rfl
  | true =>
      obtain ⟨body, hsegments, hbody⟩ := segments_of_isAbsolute hp
      cases kept with
      | nil => cases hp
      | cons first pieces =>
          change cutAtSlashes _ = _ at hsegments
          rw [cutAtSlashes_join first pieces h] at hsegments
          cases hsegments
          exact absurd rfl hfirst

/-- Above the last name are the names before it, in the pieces the body begins with. -/
theorem above_eq_some {body kept : List Bytes} (h : parent?.above body = some kept) :
    namesAmong kept = (namesAmong body).dropLast ∧ kept <+: body := by
  unfold parent?.above at h
  rcases dropIdle_cases body with hdrop | ⟨front, last, hdrop, hlast⟩
  · rw [hdrop] at h
    cases h
  -- the last name goes, and with it what is idle before it
  · obtain rfl : dropIdle front = kept := by
      rw [hdrop] at h
      split at h
      · cases h
      · next hcons =>
        rw [← hcons, List.dropLast_concat] at h
        exact Option.some.inj h
    constructor
    · rw [← namesAmong_dropIdle body, hdrop, namesAmong_append, namesAmong_cons_of_name hlast,
        namesAmong_nil, List.dropLast_concat, namesAmong_dropIdle]
    · have hfront : dropIdle front <+: front := List.rdropWhile_prefix isIdle front
      have hbody : dropIdle body <+: body := List.rdropWhile_prefix isIdle body
      rw [hdrop] at hbody
      exact (hfront.trans (List.prefix_append front [last])).trans hbody

theorem above_eq_none {body : List Bytes} (h : parent?.above body = none) :
    namesAmong body = [] := by
  unfold parent?.above at h
  split at h
  · next hdrop => rw [← namesAmong_dropIdle, hdrop, namesAmong_nil]
  · cases h

/-- A path whose first piece is not empty is relative. -/
theorem isAbsolute_of_first {p : Path} {first : Bytes} {body : List Bytes}
    (h : p.segments = first :: body) (hfirst : first ≠ []) : p.isAbsolute = false := by
  cases hp : p.isAbsolute with
  | false => rfl
  | true =>
      obtain ⟨rest, hrest, -⟩ := segments_of_isAbsolute hp
      rw [h] at hrest
      exact absurd (List.cons.inj hrest).1 hfirst

/-- What `up` has in common with `p` if it is the parent of `p`. -/
def IsAbove (up p : Path) : Prop := up.names = p.names.dropLast ∧ up.isAbsolute = p.isAbsolute

/-- The parent of a path that starts at the root. -/
theorem isAbove_absolute {p : Path} {body kept : List Bytes} (h : p.segments = [] :: body)
    (hbody : body ≠ []) (habove : parent?.above body = some kept) :
    IsAbove ⟨slash :: joinWithSlashes kept⟩ p := by
  obtain ⟨hnames, hbegins⟩ := above_eq_some habove
  have hkept : ∀ piece ∈ kept, slash ∉ piece := by
    intro piece hpiece
    apply slash_not_mem_segments (p := p)
    rw [h]
    exact List.mem_cons_of_mem _ (hbegins.subset hpiece)
  constructor
  · rw [names_slash_join hkept, hnames, names_eq, h, namesAmong_cons_of_idle isIdle_nil]
  · rw [isAbsolute_of_segments h hbody]
    rfl

/-- The parent of a path that starts with a dot, which is kept. -/
theorem isAbove_dot {p : Path} {body kept : List Bytes} (h : p.segments = dot :: body)
    (habove : parent?.above body = some kept) : IsAbove ⟨joinWithSlashes (dot :: kept)⟩ p := by
  obtain ⟨hnames, hbegins⟩ := above_eq_some habove
  have hkept : ∀ piece ∈ dot :: kept, slash ∉ piece := by
    intro piece hpiece
    apply slash_not_mem_segments (p := p)
    rw [h]
    exact (List.cons_prefix_cons.2 ⟨rfl, hbegins⟩).subset hpiece
  constructor
  · rw [names_join hkept, namesAmong_cons_of_idle isIdle_dot, hnames, names_eq, h,
      namesAmong_cons_of_idle isIdle_dot]
  · rw [isAbsolute_of_first h (List.cons_ne_nil _ _)]
    exact isAbsolute_join hkept (by simp [dot])

/-- The parent of a path that starts with a name. -/
theorem isAbove_relative {p : Path} {first : Bytes} {body kept : List Bytes}
    (h : p.segments = first :: body) (hfirst : first ≠ [])
    (habove : parent?.above (first :: body) = some kept) : IsAbove ⟨joinWithSlashes kept⟩ p := by
  obtain ⟨hnames, hbegins⟩ := above_eq_some habove
  have hkept : ∀ piece ∈ kept, slash ∉ piece := by
    intro piece hpiece
    apply slash_not_mem_segments (p := p)
    rw [h]
    exact hbegins.subset hpiece
  constructor
  · rw [names_join hkept, hnames, names_eq, h]
  · rw [isAbsolute_of_first h hfirst]
    -- what is kept begins as the path does, so it is not absolute by accident
    apply isAbsolute_join hkept
    intro hhead
    cases kept with
    | nil => cases hhead
    | cons _ pieces =>
        cases hhead
        exact hfirst (List.cons_prefix_cons.1 hbegins).1.symm

/-- **The parent has all names but the last, and starts where the path starts.** -/
theorem parent?_eq_some {p up : Path} (h : p.parent? = some up) :
    up.names = p.names.dropLast ∧ up.isAbsolute = p.isAbsolute := by
  unfold parent? at h
  split at h
  · next second body hsegments =>
    obtain ⟨kept, habove, rfl⟩ := Option.map_eq_some_iff.1 h
    exact isAbove_absolute hsegments (List.cons_ne_nil _ _) habove
  · next first body hnot hsegments =>
    split at h
    · next hdot =>
      rw [hdot] at hsegments
      split at h
      · next habove =>
        cases h
        have hnames : p.names = [] := by
          rw [names_eq, hsegments, namesAmong_cons_of_idle isIdle_dot]
          exact above_eq_none habove
        rw [hnames, isAbsolute_of_first hsegments (List.cons_ne_nil _ _)]
        exact ⟨rfl, rfl⟩
      · next kept habove =>
        cases h
        exact isAbove_dot hsegments habove
    · obtain ⟨kept, habove, rfl⟩ := Option.map_eq_some_iff.1 h
      -- an empty first piece has other pieces after it, unless the path is empty
      refine isAbove_relative hsegments ?_ habove
      rintro rfl
      cases body with
      | nil => cases habove
      | cons second body => exact hnot second body rfl rfl
  · cases h

/-- Only a path without names has no parent. -/
theorem parent?_eq_none {p : Path} (h : p.parent? = none) : p.names = [] := by
  unfold parent? at h
  rw [names_eq]
  split at h
  · next second body hsegments =>
    rw [hsegments, namesAmong_cons_of_idle isIdle_nil]
    exact above_eq_none (Option.map_eq_none_iff.1 h)
  · next first body _ hsegments =>
    split at h
    · split at h <;> cases h
    · rw [hsegments]
      exact above_eq_none (Option.map_eq_none_iff.1 h)
  · next hsegments => exact absurd hsegments (cutAtSlashes_ne_nil _)

/-- What is above a path has its first names, and starts where the path starts. -/
theorem names_of_mem_ancestors {p up : Path} (h : up ∈ p.ancestors) :
    up.names <+: p.names ∧ up.isAbsolute = p.isAbsolute := by
  unfold ancestors at h
  -- on the steps of the search, each of which goes one name up
  generalize p.bytes.length = steps at h
  induction steps generalizing p with
  | zero => cases h
  | succ steps ih =>
      unfold ancestors.go at h
      split at h
      · cases h
      split at h
      · obtain rfl := List.mem_singleton.1 h
        exact ⟨List.prefix_refl _, rfl⟩
      · next parent hparent =>
        rcases List.mem_cons.1 h with rfl | habove
        · exact ⟨List.prefix_refl _, rfl⟩
        · obtain ⟨hnames, habsolute⟩ := parent?_eq_some hparent
          obtain ⟨hbegins, hsame⟩ := ih habove
          rw [hnames] at hbegins
          exact ⟨hbegins.trans (List.dropLast_prefix _), hsame.trans habsolute⟩

end Path

end Keyring
