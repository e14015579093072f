/-
  Keyring.Proofs.Path.Absolute
  ────────────────────────────────
  **PATHS FROM THE ROOT.**

  `absolute?` puts the names of a path behind a root or behind the working
  folder, one after another.  Each of them leaves the path normal: it starts
  at the root, and no dot and no second slash is in it, unless it starts
  with just two.

  A normal path is made of its own names in this way, whatever the working
  folder is.  So the paths that count from the root in any folder are just
  the normal ones.

      SingleSlashes — none behind another, but for two at the start
      IsNormal      — from the root, without dots and with single slashes
      IsBare        — a normal path as that of a working folder is written

  Main results:
    * `IsNormal.push` — one piece further down;
    * `absolute?_spec` — the names, the form and the end of an absolute path;
    * `absolute?_eq_self_iff` — the paths that are their own.
-/
import Keyring.Proofs.Path.Names

namespace Keyring

/-- The bytes between the slashes are those of the pieces. -/
theorem mem_bytes_iff_mem_piece {bytes : Bytes} {byte : UInt8} (hbyte : byte ≠ slash) :
    byte ∈ bytes ↔ ∃ piece ∈ cutAtSlashes bytes, byte ∈ piece := by
  induction bytes with
  | nil => simp [cutAtSlashes]
  | cons first rest ih =>
      rw [cutAtSlashes, List.mem_cons, ih]
      split
      · next hfirst => simp [hfirst, hbyte]
      · cases hcut : cutAtSlashes rest with
        | nil => exact absurd hcut (cutAtSlashes_ne_nil rest)
        | cons piece pieces => simp [or_assoc]

namespace Path

/-! ## §1. Normal paths. -/

/-- No slash stands behind another, but for two at the start. -/
def SingleSlashes (bytes : Bytes) : Prop :=
  ∀ front back, bytes = front ++ slash :: slash :: back → front = [] ∧ back.head? ≠ some slash

/-- A path from the root in which no segment is a dot and the slashes are single. -/
structure IsNormal (p : Path) : Prop where
  absolute : p.isAbsolute = true
  noDot : dot ∉ p.segments
  single : SingleSlashes p.bytes

/-- As the path of a working folder is written: a slash at the end is that of a root. -/
structure IsBare (p : Path) : Prop extends IsNormal p where
  ending : p.endsInSlash = true → p.names = []

theorem isBare_root : IsBare ⟨[slash]⟩ where
  absolute := rfl
  noDot := by decide
  single := by
    intro front back h
    have hlength := congrArg List.length h
    simp only [List.length_append, List.length_cons, List.length_nil] at hlength
    omega
  ending := fun _ => rfl

theorem isBare_doubleRoot : IsBare ⟨[slash, slash]⟩ where
  absolute := rfl
  noDot := by decide
  single := by
    intro front back h
    have hlength := congrArg List.length h
    simp only [List.length_append, List.length_cons, List.length_nil] at hlength
    obtain rfl : front = [] := List.eq_nil_of_length_eq_zero (by omega)
    obtain rfl : back = [] := List.eq_nil_of_length_eq_zero (by omega)
    exact ⟨rfl, nofun⟩
  ending := fun _ => rfl

/-- Without dots a path has no names just if it is slashes alone. -/
theorem names_eq_nil_iff {p : Path} (hdot : dot ∉ p.segments) :
    p.names = [] ↔ ∀ byte ∈ p.bytes, byte = slash := by
  rw [names_eq, namesAmong, List.filter_eq_nil_iff]
  constructor
  · intro hidle byte hmem
    by_contra hbyte
    obtain ⟨piece, hpiece, hmem⟩ := (mem_bytes_iff_mem_piece hbyte).1 hmem
    rcases (isIdle_iff piece).1 (by simpa using hidle piece hpiece) with rfl | rfl
    · cases hmem
    · exact hdot hpiece
  · intro hslashes piece hpiece
    have hempty : piece = [] := by
      refine List.eq_nil_iff_forall_not_mem.2 fun byte hmem => ?_
      have hbyte : byte ≠ slash := by
        rintro rfl
        exact slash_not_mem_segments hpiece hmem
      exact hbyte (hslashes byte ((mem_bytes_iff_mem_piece hbyte).2 ⟨piece, hpiece, hmem⟩))
    simp [hempty]

/-- A normal path without names is a root, and ends as it starts. -/
theorem IsNormal.endsInSlash_of_names {p : Path} (h : p.IsNormal) (hnames : p.names = []) :
    p.endsInSlash = true := by
  have hslashes := (names_eq_nil_iff h.noDot).1 hnames
  have hne : p.bytes ≠ [] := by
    intro hempty
    have habsolute := h.absolute
    simp [isAbsolute, hempty] at habsolute
  have hlast := hslashes _ (List.getLast_mem hne)
  rw [endsInSlash, List.getLast?_eq_some_getLast hne, hlast]
  rfl

/-! ## §2. One piece further down. -/

/-- Two slashes in a row are not made by bytes without a slash behind them. -/
theorem slashes_of_append {before segment front back : Bytes} (hslash : slash ∉ segment)
    (h : before ++ segment = front ++ slash :: slash :: back) :
    ∃ middle, before = front ++ slash :: slash :: middle ∧ back = middle ++ segment := by
  have hsplit : before ++ segment = (front ++ [slash, slash]) ++ back := by simpa using h
  rcases List.append_eq_append_iff.1 hsplit with ⟨cut, hfront, hsegment⟩ | ⟨cut, hbefore, hback⟩
  · -- the second of them would be in the segment, or there is nothing between
    rcases List.eq_nil_or_concat cut with rfl | ⟨cut, last, rfl⟩
    · refine ⟨[], ?_, by simpa using hsegment.symm⟩
      simpa using hfront.symm
    · have hlast : slash = last := by
        have hends := congrArg List.getLast? hfront
        simpa using hends
      refine absurd ?_ hslash
      rw [hsegment, hlast]
      simp
  · exact ⟨cut, by simpa using hbefore, hback⟩

/-- Bytes without a slash leave the slashes single. -/
theorem SingleSlashes.append {bytes segment : Bytes} (h : SingleSlashes bytes)
    (hslash : slash ∉ segment) : SingleSlashes (bytes ++ segment) := by
  intro front back heq
  obtain ⟨middle, hbytes, rfl⟩ := slashes_of_append hslash heq
  obtain ⟨hfront, hmiddle⟩ := h front middle hbytes
  refine ⟨hfront, fun hhead => ?_⟩
  cases middle with
  | nil => exact hslash (List.mem_of_head? hhead)
  | cons byte middle => exact hmiddle hhead

/-- So does a slash that stands behind no other. -/
theorem SingleSlashes.append_slash {bytes : Bytes} (h : SingleSlashes bytes)
    (hlast : bytes.getLast? ≠ some slash) : SingleSlashes (bytes ++ [slash]) := by
  intro front back heq
  rcases List.eq_nil_or_concat back with rfl | ⟨middle, last, rfl⟩
  · have heq : bytes ++ [slash] = (front ++ [slash]) ++ [slash] := by simpa using heq
    have hbytes := (List.append_inj' heq rfl).1
    exact absurd (by simp [hbytes]) hlast
  · have heq : bytes ++ [slash] = (front ++ slash :: slash :: middle) ++ [last] := by
      simpa using heq
    have hbytes := (List.append_inj' heq rfl).1
    obtain ⟨hfront, hmiddle⟩ := h front middle hbytes
    refine ⟨hfront, ?_⟩
    cases middle with
    | nil => exact absurd (by simp [hbytes]) hlast
    | cons byte middle => exact hmiddle

/-- **A piece that is pushed leaves a path normal.** -/
theorem IsNormal.push {p : Path} (h : p.IsNormal) {segment : Bytes} (hslash : slash ∉ segment)
    (hdot : segment ≠ dot) : (p.push segment).IsNormal where
  absolute := isAbsolute_push h.absolute segment
  noDot := by
    obtain ⟨front, hsegments, hfront, -⟩ := p.segments_push hslash
    rw [hsegments, List.mem_append, List.mem_singleton, not_or]
    exact ⟨fun hmem => h.noDot (hfront.subset hmem), fun heq => hdot heq.symm⟩
  single := by
    unfold Path.push
    split
    · exact h.single.append hslash
    · next hend =>
      have hlast : p.bytes.getLast? ≠ some slash := by
        rw [Bool.or_eq_true, not_or] at hend
        simpa [endsInSlash] using hend.2
      have hsingle := (h.single.append_slash hlast).append hslash
      simpa using hsingle

/-- A name that is pushed leaves no slash at the end. -/
theorem IsBare.push {p : Path} (h : p.IsBare) {name : Bytes} (hslash : slash ∉ name)
    (hname : isIdle name = false) : (p.push name).IsBare where
  toIsNormal := h.toIsNormal.push hslash (by rintro rfl; cases hname)
  ending := by
    intro hend
    rw [endsInSlash_push p (by rintro rfl; cases hname) hslash] at hend
    cases hend

theorem isEmpty_of_isAbsolute {p : Path} (h : p.isAbsolute = true) : p.isEmpty = false := by
  obtain ⟨bytes⟩ := p
  cases bytes with
  | nil => cases h
  | cons byte rest => rfl

theorem push_nil {p : Path} (h : p.endsInSlash = true) : p.push [] = p := by
  unfold push
  rw [if_pos (by simp [h]), List.append_nil]

theorem endsInSlash_push_nil {p : Path} (h : p.isEmpty = false) :
    (p.push []).endsInSlash = true := by
  unfold push
  split
  · next hend =>
    rw [h, Bool.false_or] at hend
    simpa [endsInSlash] using hend
  · simp [endsInSlash]

theorem names_push_nil (p : Path) : (p.push []).names = p.names := by
  obtain ⟨front, hsegments, -, hfront⟩ := p.segments_push (List.not_mem_nil : slash ∉ [])
  rw [names_eq, hsegments, namesAmong_append, hfront, namesAmong_cons_of_idle isIdle_nil,
    namesAmong_nil, List.append_nil]

/-- **The names of a path, one after another, behind one that is bare.** -/
theorem IsBare.foldl_push {names : List Bytes} (hnames : ∀ name ∈ names, slash ∉ name)
    (hidle : ∀ name ∈ names, isIdle name = false) {p : Path} (h : p.IsBare) :
    (names.foldl Path.push p).IsBare ∧ (names.foldl Path.push p).names = p.names ++ names := by
  induction names generalizing p with
  | nil => exact ⟨h, (List.append_nil _).symm⟩
  | cons name names ih =>
      have hslash := hnames name List.mem_cons_self
      have hname := hidle name List.mem_cons_self
      obtain ⟨hbare, hall⟩ := ih (fun n hn => hnames n (List.mem_cons_of_mem _ hn))
        (fun n hn => hidle n (List.mem_cons_of_mem _ hn)) (h.push hslash hname)
      refine ⟨hbare, hall.trans ?_⟩
      rw [names_push p hslash hname, List.append_assoc, List.singleton_append]

/-! ## §3. From a start. -/

theorem IsNormal.hasDoubleRoot_iff {p : Path} (h : p.IsNormal) :
    p.hasDoubleRoot = true ↔ ∃ rest, p.bytes = slash :: slash :: rest := by
  obtain ⟨bytes⟩ := p
  rcases bytes with _ | ⟨a, _ | ⟨b, _ | ⟨c, rest⟩⟩⟩
  · simp [hasDoubleRoot]
  · simp [hasDoubleRoot]
  · simp [hasDoubleRoot]
  · -- the third byte is no slash behind two others
    have hthird : a = slash → b = slash → c ≠ slash := by
      rintro rfl rfl rfl
      exact (h.single [] _ rfl).2 rfl
    simp only [hasDoubleRoot, Bool.and_eq_true, beq_iff_eq, bne_iff_ne, List.cons.injEq]
    exact ⟨fun ⟨⟨ha, hb⟩, _⟩ => ⟨_, ha, hb, rfl⟩,
      fun ⟨_, ha, hb, _⟩ => ⟨⟨ha, hb⟩, hthird ha hb⟩⟩

/-- Two slashes at the start of a path are there from the start. -/
theorem IsNormal.hasDoubleRoot_push {p : Path} (h : p.IsNormal) {segment : Bytes}
    (hslash : slash ∉ segment) (hdot : segment ≠ dot) :
    (p.push segment).hasDoubleRoot = p.hasDoubleRoot := by
  rw [Bool.eq_iff_iff, (h.push hslash hdot).hasDoubleRoot_iff, h.hasDoubleRoot_iff]
  obtain ⟨bytes⟩ := p
  rcases bytes with _ | ⟨a, _ | ⟨b, rest⟩⟩
  · cases h.absolute
  · obtain rfl : a = slash := by simpa [isAbsolute] using h.absolute
    have hbytes : (Path.push ⟨[slash]⟩ segment).bytes = slash :: segment := rfl
    rw [hbytes]
    constructor
    · rintro ⟨rest, heq⟩
      obtain rfl : segment = slash :: rest := (List.cons.inj heq).2
      exact absurd List.mem_cons_self hslash
    · rintro ⟨rest, heq⟩
      cases heq
  · have hbytes : ∃ more, (Path.push ⟨a :: b :: rest⟩ segment).bytes = a :: b :: more := by
      unfold Path.push
      split
      · exact ⟨_, rfl⟩
      · exact ⟨_, rfl⟩
    obtain ⟨more, hbytes⟩ := hbytes
    rw [hbytes]
    simp

theorem isAbsolute_of_hasDoubleRoot {p : Path} (h : p.hasDoubleRoot = true) :
    p.isAbsolute = true := by
  obtain ⟨bytes⟩ := p
  rcases bytes with _ | ⟨a, _ | ⟨b, _ | ⟨c, rest⟩⟩⟩ <;> simp_all [hasDoubleRoot, isAbsolute]

/-- Names are counted from a root, or from the working folder. -/
theorem isBare_start {folder : Path} (h : folder.IsBare) (p : Path) :
    (p.start folder).IsBare
      ∧ (p.start folder).names = if p.isAbsolute then [] else folder.names := by
  unfold start
  split
  · next hdouble =>
    rw [if_pos (isAbsolute_of_hasDoubleRoot hdouble)]
    exact ⟨isBare_doubleRoot, rfl⟩
  · split
    · exact ⟨isBare_root, rfl⟩
    · exact ⟨h, rfl⟩

/-- No name of a path is idle or holds a slash. -/
theorem slash_not_mem_names {p : Path} {name : Bytes} (h : name ∈ p.names) : slash ∉ name :=
  slash_not_mem_segments (List.mem_of_mem_filter h)

theorem isIdle_of_mem_names {p : Path} {name : Bytes} (h : name ∈ p.names) :
    isIdle name = false := by
  simpa using (List.mem_filter.1 h).2

/-- **What counts from the root is normal, with the names of the path behind those of the working
folder, and ends in a slash where the path does or nothing else is left.** -/
theorem absolute?_spec {folder : Path} (hfolder : folder.IsBare) {p : Path}
    (hp : p.isEmpty = false) :
    ∃ q, p.absolute? folder = some q ∧ q.IsNormal
      ∧ q.names = (if p.isAbsolute then [] else folder.names) ++ p.names
      ∧ (q.endsInSlash = true ↔ p.endsInSlash = true ∨ ∀ byte ∈ q.bytes, byte = slash) := by
  obtain ⟨hstart, hnames⟩ := isBare_start hfolder p
  obtain ⟨hbare, hall⟩ := hstart.foldl_push (fun _ => slash_not_mem_names (p := p))
    (fun _ => isIdle_of_mem_names)
  rw [hnames] at hall
  unfold absolute?
  rw [if_neg (by simp [hp])]
  refine ⟨_, rfl, ?_⟩
  split
  · next hend =>
    have hnormal := hbare.toIsNormal.push List.not_mem_nil (by decide : ([] : Bytes) ≠ dot)
    refine ⟨hnormal, (names_push_nil _).trans hall, ?_⟩
    rw [endsInSlash_push_nil (isEmpty_of_isAbsolute hbare.absolute)]
    simp [hend]
  · next hend =>
    refine ⟨hbare.toIsNormal, hall, ?_⟩
    rw [← names_eq_nil_iff hbare.noDot, or_iff_right hend]
    exact ⟨hbare.ending, hbare.endsInSlash_of_names⟩

example : absolute? (.ofString ".//a/./../b//") (.ofString "//w")
    = some (.ofString "//w/a/../b/") := by decide +kernel

/-! ## §4. Normal paths again. -/

/-- What stands in front of the last slash is normal, unless that is nothing or a slash. -/
theorem IsNormal.front {front back : Bytes} (h : IsNormal ⟨front ++ slash :: back⟩)
    (hne : front ≠ []) : IsNormal ⟨front⟩ where
  absolute := by
    have habsolute := h.absolute
    cases front with
    | nil => exact absurd rfl hne
    | cons byte front => exact habsolute
  noDot := by
    intro hmem
    apply h.noDot
    show dot ∈ cutAtSlashes (front ++ slash :: back)
    rw [cutAtSlashes_append]
    exact List.mem_append_left _ hmem
  single := by
    rintro before after hbytes
    have hbytes : front = before ++ slash :: slash :: after := hbytes
    obtain ⟨hbefore, hafter⟩ := h.single before (after ++ slash :: back) (by simp [hbytes])
    refine ⟨hbefore, fun heq => hafter ?_⟩
    rw [List.head?_append, heq]
    rfl

/-- A normal path is a root, or one piece below a path that is bare. -/
theorem IsNormal.cases {p : Path} (h : p.IsNormal) : p = ⟨[slash]⟩ ∨ p = ⟨[slash, slash]⟩
    ∨ ∃ (up : Path) (segment : Bytes), p = up.push segment ∧ up.IsBare
      ∧ up.bytes.length < p.bytes.length ∧ slash ∉ segment ∧ segment ≠ dot := by
  obtain ⟨bytes⟩ := p
  rcases no_slash_or_last_slash bytes with hnone | ⟨front, back, rfl, hback⟩
  · have habsolute := h.absolute
    refine absurd (List.mem_of_head? ?_) hnone
    simpa [isAbsolute] using habsolute
  have hdot : back ≠ dot := by
    rintro rfl
    refine h.noDot ?_
    show dot ∈ cutAtSlashes (front ++ slash :: dot)
    rw [cutAtSlashes_append]
    exact List.mem_append_right _ (by decide)
  by_cases hfront : front = []
  · subst hfront
    cases back with
    | nil => exact .inl rfl
    | cons byte back => exact .inr (.inr ⟨_, _, rfl, isBare_root, by simp, hback, hdot⟩)
  by_cases hlast : front.getLast? = some slash
  · -- a slash in front of the last one is the first
    obtain ⟨before, rfl⟩ := List.getLast?_eq_some_iff.1 hlast
    obtain ⟨rfl, -⟩ := h.single before back (by simp)
    cases back with
    | nil => exact .inr (.inl rfl)
    | cons byte back => exact .inr (.inr ⟨_, _, rfl, isBare_doubleRoot, by simp, hback, hdot⟩)
  · have hends : endsInSlash ⟨front⟩ = false := by simpa [endsInSlash] using hlast
    have hbare : IsBare ⟨front⟩ :=
      { h.front hfront with ending := fun hend => by rw [hends] at hend; cases hend }
    refine .inr (.inr ⟨⟨front⟩, back, ?_, hbare, by simp, hback, hdot⟩)
    rw [Path.push, isEmpty_of_isAbsolute hbare.absolute, hends]
    rfl

theorem start_push {p : Path} (h : p.IsNormal) {segment : Bytes} (hslash : slash ∉ segment)
    (hdot : segment ≠ dot) (folder : Path) :
    (p.push segment).start folder = p.start folder := by
  unfold start
  rw [h.hasDoubleRoot_push hslash hdot, isAbsolute_push h.absolute, h.absolute]

/-- A bare path is made of its names, whatever the working folder is. -/
theorem IsBare.foldl_names {p : Path} (h : p.IsBare) (folder : Path) :
    p.names.foldl Path.push (p.start folder) = p := by
  -- on the length, from the last name upwards
  induction hlength : p.bytes.length using Nat.strong_induction_on generalizing p with
  | h length ih =>
    rcases h.toIsNormal.cases with rfl | rfl | ⟨up, segment, rfl, hup, hshorter, hslash, hdot⟩
    · rfl
    · rfl
    rw [hlength] at hshorter
    have hmade := ih _ hshorter hup rfl
    rw [start_push hup.toIsNormal hslash hdot]
    cases segment with
    | nil =>
        -- a slash that is pushed to a root is none
        have hnames := h.ending (endsInSlash_push_nil (isEmpty_of_isAbsolute hup.absolute))
        rw [names_push_nil] at hnames
        rw [push_nil (hup.endsInSlash_of_names hnames)] at hlength
        omega
    | cons byte segment =>
        have hname : isIdle (byte :: segment) = false := by simpa [isIdle] using hdot
        rw [names_push up hslash hname, List.foldl_append, hmade]
        rfl

/-- **A normal path counts from the root as it is.** -/
theorem IsNormal.absolute?_eq {p : Path} (h : p.IsNormal) (folder : Path) :
    p.absolute? folder = some p := by
  unfold absolute?
  rw [if_neg (by simp [isEmpty_of_isAbsolute h.absolute])]
  by_cases hbare : p.IsBare
  · rw [hbare.foldl_names]
    split
    · next hend => exact congrArg some (push_nil hend)
    · rfl
  rcases h.cases with rfl | rfl | ⟨up, segment, rfl, hup, -, hslash, hdot⟩
  · exact absurd isBare_root hbare
  · exact absurd isBare_doubleRoot hbare
  cases segment with
  | nil =>
      rw [names_push_nil, start_push hup.toIsNormal hslash hdot, hup.foldl_names]
      exact congrArg some (if_pos (endsInSlash_push_nil (isEmpty_of_isAbsolute hup.absolute)))
  | cons byte segment =>
      exact absurd (hup.push hslash (by simpa [isIdle] using hdot)) hbare

/-- **Just the normal paths count from the root as they are, in any working folder.** -/
theorem absolute?_eq_self_iff (p : Path) :
    (∀ folder, p.absolute? folder = some p) ↔ p.IsNormal := by
  refine ⟨fun h => ?_, fun h => h.absolute?_eq⟩
  cases hempty : p.isEmpty with
  | true =>
      have hself := h p
      rw [absolute?, if_pos hempty] at hself
      cases hself
  | false =>
      obtain ⟨q, hq, hnormal, -⟩ := absolute?_spec isBare_root hempty
      cases (h _).symm.trans hq
      exact hnormal

end Path

end Keyring
