/-
  Keyring.Proofs.FileSystem.Reach
  ────────────────────────────────
  **WALKING TO A FOLDER.**

  `reach` is a walk that must end in a folder.  It does not matter to it how
  a path is cut up: it goes along two parts of a path by going along the
  first and then, from there, along the second, and segments that name
  nothing make no difference.

  `Reaches` is the same walk as a relation, with one constructor for each
  way in which a step is taken.  Whatever is to be said about walks is said
  by induction on it.

  Main results:
    * `reach_eq_ok_iff`  — the relation is the function;
    * `reach_append`     — a walk in two parts;
    * `reach_namesAmong` — only names matter.
-/
import Keyring.FileSystem.Operations
import Keyring.Proofs.Path.Names
import Keyring.Proofs.Steps

namespace Keyring.FileSystem

open Keyring.Path (isIdle namesAmong)

/-! ## §1. One step of a walk. -/

/-- What is done at a link: without links left it is an error. -/
def followWith (fs : FileSystem) : Nat → Location → List Bytes → Except FileError Arrival
  | 0 => fun _ _ => .error .tooManyLinks
  | links + 1 => fs.walk links

theorem walk_eq (fs : FileSystem) (links : Nat) :
    fs.walk links = fs.walkUntilLink links (fs.followWith links) := by
  cases links <;> rfl

/-- Going on at the place of a name, and through the link if one stands there. -/
def walkFrom (fs : FileSystem) (links : Nat) (place inner : Location) (rest : List Bytes) :
    Except FileError Arrival :=
  match fs.node? inner with
  | none => .error .notFound
  | some (.link target) =>
    match links with
    | 0 => .error .tooManyLinks
    | left + 1 => fs.walk left (startOf target place) (target.segments ++ rest)
  | some _ => fs.walk links inner rest

theorem walk_nil (fs : FileSystem) (links : Nat) (place : Location) :
    fs.walk links place [] = .ok ⟨place, links⟩ := by
  rw [walk_eq, walkUntilLink]

theorem walk_cons (fs : FileSystem) (links : Nat) (place : Location) (segment : Bytes)
    (rest : List Bytes) :
    fs.walk links place (segment :: rest) = (do
      fs.requireFolder place
      if isIdle segment then fs.walk links place rest
      else if segment = dotDot then fs.walk links place.tail rest
      else
        let inner ← fs.placeIn place segment
        fs.walkFrom links place inner rest) := by
  unfold walkFrom
  rw [walk_eq, walkUntilLink]
  cases fs.requireFolder place with
  | error e => rfl
  | ok _ =>
      show (if isIdle segment = true then _ else if segment = dotDot then _ else _)
        = (if isIdle segment = true then _ else if segment = dotDot then _ else _)
      cases fs.placeIn place segment with
      | error e => rfl
      | ok inner =>
          simp only [ok_bind]
          cases fs.node? inner with
          | none => rfl
          | some node =>
              cases node with
              -- `followWith` is defined by the number of links left
              | link target => cases links <;> rfl
              | _ => rfl

/-! ## §2. A walk in parts. -/

/-- **A walk along two parts goes on from where the first part ends.**  The induction is on the
links left, and then on the segments: the target of a link may have more of them than were left
of the path. -/
theorem walk_append (fs : FileSystem) (back : List Bytes) :
    ∀ (links : Nat) (front : List Bytes) (place : Location),
      fs.walk links place (front ++ back) = (do
        let arrival ← fs.walk links place front
        fs.walk arrival.linksLeft arrival.place back) := by
  intro links
  induction links using Nat.strongRecOn with
  | ind links ihlinks =>
      intro front
      induction front with
      | nil =>
          intro place
          rw [walk_nil]
          rfl
      | cons segment rest ih =>
          intro place
          show fs.walk links place (segment :: (rest ++ back)) = _
          rw [walk_cons, walk_cons]
          cases fs.requireFolder place with
          | error e => rfl
          | ok _ =>
              show (if isIdle segment = true then _ else if segment = dotDot then _ else _)
                = (if isIdle segment = true then _ else if segment = dotDot then _ else _) >>= _
              split
              · exact ih place
              split
              · exact ih place.tail
              cases fs.placeIn place segment with
              | error e => rfl
              | ok inner =>
                  show fs.walkFrom links place inner (rest ++ back)
                    = fs.walkFrom links place inner rest >>= _
                  unfold walkFrom
                  split
                  · rfl
                  · cases links with
                    | zero => rfl
                    | succ left =>
                        -- the target comes in front of both parts of what was left
                        show fs.walk left _ (_ ++ (rest ++ back)) = _
                        rw [← List.append_assoc, ihlinks left (by omega)]
                  · exact ih inner

/-! ## §3. Walking to a folder. -/

/-- A walk that must end in a folder. -/
def reach (fs : FileSystem) (links : Nat) (place : Location) (segments : List Bytes) :
    Except FileError Arrival := do
  let arrival ← fs.walk links place segments
  fs.requireFolder arrival.place
  return arrival

/-- Going on at the place of a name to a folder, and through the link if one stands there. -/
def reachFrom (fs : FileSystem) (links : Nat) (place inner : Location) (rest : List Bytes) :
    Except FileError Arrival := do
  let arrival ← fs.walkFrom links place inner rest
  fs.requireFolder arrival.place
  return arrival

theorem reach_nil (fs : FileSystem) (links : Nat) (place : Location) :
    fs.reach links place [] = (do fs.requireFolder place; return ⟨place, links⟩) := by
  unfold reach
  rw [walk_nil]
  rfl

theorem reach_cons (fs : FileSystem) (links : Nat) (place : Location) (segment : Bytes)
    (rest : List Bytes) :
    fs.reach links place (segment :: rest) = (do
      fs.requireFolder place
      if isIdle segment then fs.reach links place rest
      else if segment = dotDot then fs.reach links place.tail rest
      else
        let inner ← fs.placeIn place segment
        fs.reachFrom links place inner rest) := by
  unfold reach
  rw [walk_cons]
  cases fs.requireFolder place with
  | error e => rfl
  | ok _ =>
      show (if isIdle segment = true then _ else if segment = dotDot then _ else _) >>= _
        = (if isIdle segment = true then _ else if segment = dotDot then _ else _)
      -- an idle segment, `..`, and a name
      split
      · rfl
      split
      · rfl
      cases fs.placeIn place segment <;> rfl

/-- A folder stands there, if only a removed one. -/
def HasFolder (fs : FileSystem) (place : Location) : Prop :=
  fs.node? place = some .folder ∨ fs.node? place = some .removed

theorem requireFolder_eq_ok_iff (fs : FileSystem) (place : Location) :
    fs.requireFolder place = .ok () ↔ fs.HasFolder place := by
  unfold requireFolder HasFolder
  cases fs.node? place with
  | none => simp
  | some node => cases node <;> simp

theorem requireFolder_of_hasFolder {fs : FileSystem} {place : Location} (h : fs.HasFolder place) :
    fs.requireFolder place = .ok () := (fs.requireFolder_eq_ok_iff place).2 h

/-- Where there is no folder, no walk begins. -/
theorem reach_of_requireFolder_error {fs : FileSystem} {place : Location} {e : FileError}
    (h : fs.requireFolder place = .error e) (links : Nat) (segments : List Bytes) :
    fs.reach links place segments = .error e := by
  cases segments with
  | nil => rw [reach_nil, h]; rfl
  | cons segment rest => rw [reach_cons, h]; rfl

/-- Before a segment there must be a folder. -/
theorem walk_append_cons (fs : FileSystem) (links : Nat) (place : Location) (front : List Bytes)
    (segment : Bytes) (back : List Bytes) :
    fs.walk links place (front ++ segment :: back) = (do
      let arrival ← fs.reach links place front
      fs.walk arrival.linksLeft arrival.place (segment :: back)) := by
  rw [walk_append]
  unfold reach
  cases fs.walk links place front with
  | error e => rfl
  | ok arrival =>
      show fs.walk _ _ (segment :: back) = fs.requireFolder arrival.place >>= _ >>= _
      cases hhere : fs.requireFolder arrival.place with
      | error e => rw [walk_cons, hhere]; rfl
      | ok _ => rfl

/-- **A walk to a folder along two parts goes on from the folder where the first part ends.** -/
theorem reach_append (fs : FileSystem) (links : Nat) (place : Location)
    (front back : List Bytes) :
    fs.reach links place (front ++ back) = (do
      let arrival ← fs.reach links place front
      fs.reach arrival.linksLeft arrival.place back) := by
  have hfront : fs.reach links place (front ++ back) = (do
      let arrival ← fs.walk links place front
      fs.reach arrival.linksLeft arrival.place back) := by
    show fs.walk links place (front ++ back) >>= _ = _
    rw [walk_append]
    cases fs.walk links place front <;> rfl
  rw [hfront]
  -- what is left to see: the check in between is made by the second part as well
  unfold reach
  cases fs.walk links place front with
  | error e => rfl
  | ok arrival =>
      show fs.reach _ _ back = fs.requireFolder arrival.place >>= _ >>= _
      cases hhere : fs.requireFolder arrival.place with
      | error e => rw [reach_of_requireFolder_error hhere]; rfl
      | ok _ => rfl

/-! ## §4. Steps from a folder. -/

theorem reach_done {fs : FileSystem} {place : Location} (here : fs.HasFolder place) (links : Nat) :
    fs.reach links place [] = .ok ⟨place, links⟩ := by
  rw [reach_nil, requireFolder_of_hasFolder here]
  rfl

/-- A segment that names nothing makes no difference. -/
theorem reach_idle (fs : FileSystem) (links : Nat) (place : Location) {segment : Bytes}
    (idle : isIdle segment = true) (rest : List Bytes) :
    fs.reach links place (segment :: rest) = fs.reach links place rest := by
  cases hhere : fs.requireFolder place with
  | error e => rw [reach_of_requireFolder_error hhere, reach_of_requireFolder_error hhere]
  | ok _ =>
      rw [reach_cons, hhere, if_pos idle]
      rfl

theorem reach_up {fs : FileSystem} {place : Location} (here : fs.HasFolder place) (links : Nat)
    (rest : List Bytes) :
    fs.reach links place (dotDot :: rest) = fs.reach links place.tail rest := by
  rw [reach_cons, requireFolder_of_hasFolder here]
  rfl

theorem reach_name {fs : FileSystem} {place : Location} (here : fs.HasFolder place)
    {segment : Bytes} (name : isIdle segment = false) (notUp : segment ≠ dotDot) (links : Nat)
    (rest : List Bytes) :
    fs.reach links place (segment :: rest) = (do
      let inner ← fs.placeIn place segment
      fs.reachFrom links place inner rest) := by
  rw [reach_cons, requireFolder_of_hasFolder here, if_neg (by simp [name]), if_neg notUp]
  rfl

theorem reach_within {fs : FileSystem} {place inner : Location} (here : fs.HasFolder place)
    {segment : Bytes} (name : isIdle segment = false) (notUp : segment ≠ dotDot)
    (within : fs.placeIn place segment = .ok inner) (links : Nat) (rest : List Bytes) :
    fs.reach links place (segment :: rest) = fs.reachFrom links place inner rest := by
  rw [reach_name here name notUp, within]
  rfl

theorem reachFrom_of_hasFolder {fs : FileSystem} {inner : Location} (h : fs.HasFolder inner)
    (links : Nat) (place : Location) (rest : List Bytes) :
    fs.reachFrom links place inner rest = fs.reach links inner rest := by
  unfold reachFrom walkFrom
  rcases h with h | h <;> (rw [h]; rfl)

theorem reachFrom_of_link {fs : FileSystem} {inner : Location} {target : Path}
    (h : fs.node? inner = some (.link target)) (links : Nat) (place : Location)
    (rest : List Bytes) :
    fs.reachFrom (links + 1) place inner rest
      = fs.reach links (startOf target place) (target.segments ++ rest) := by
  unfold reachFrom walkFrom
  rw [h]
  rfl

/-! ## §5. The walk as a relation. -/

/-- `fs.Reaches links place segments arrival`: from a place, going along the segments and
following at most so many links, one arrives at a folder. -/
inductive Reaches (fs : FileSystem) : Nat → Location → List Bytes → Arrival → Prop where
  | done {links : Nat} {place : Location} (here : fs.HasFolder place) :
      Reaches fs links place [] ⟨place, links⟩
  | idle {links : Nat} {place : Location} {segment : Bytes} {rest : List Bytes} {arrival : Arrival}
      (here : fs.HasFolder place) (idle : isIdle segment = true)
      (later : Reaches fs links place rest arrival) :
      Reaches fs links place (segment :: rest) arrival
  | up {links : Nat} {place : Location} {rest : List Bytes} {arrival : Arrival}
      (here : fs.HasFolder place) (later : Reaches fs links place.tail rest arrival) :
      Reaches fs links place (dotDot :: rest) arrival
  | down {links : Nat} {place inner : Location} {segment : Bytes} {rest : List Bytes}
      {arrival : Arrival} (here : fs.HasFolder place) (name : isIdle segment = false)
      (notUp : segment ≠ dotDot) (within : fs.placeIn place segment = .ok inner)
      (later : Reaches fs links inner rest arrival) :
      Reaches fs links place (segment :: rest) arrival
  | follow {links : Nat} {place inner : Location} {segment : Bytes} {target : Path}
      {rest : List Bytes} {arrival : Arrival} (here : fs.HasFolder place)
      (name : isIdle segment = false) (notUp : segment ≠ dotDot)
      (within : fs.placeIn place segment = .ok inner) (link : fs.node? inner = some (.link target))
      (later : Reaches fs links (startOf target place) (target.segments ++ rest) arrival) :
      Reaches fs (links + 1) place (segment :: rest) arrival

/-- Wherever a walk goes on, there is a folder. -/
theorem Reaches.hasFolder {fs : FileSystem} {links : Nat} {place : Location}
    {segments : List Bytes} {arrival : Arrival} (h : fs.Reaches links place segments arrival) :
    fs.HasFolder place := by
  cases h <;> assumption

/-- A walk ends in a folder. -/
theorem Reaches.hasFolder_arrival {fs : FileSystem} {links : Nat} {place : Location}
    {segments : List Bytes} {arrival : Arrival} (h : fs.Reaches links place segments arrival) :
    fs.HasFolder arrival.place := by
  induction h with
  | done here => exact here
  | _ => assumption

theorem reach_of_reaches {fs : FileSystem} {links : Nat} {place : Location}
    {segments : List Bytes} {arrival : Arrival} (h : fs.Reaches links place segments arrival) :
    fs.reach links place segments = .ok arrival := by
  induction h with
  | done here => exact reach_done here _
  | idle here idle later ih => rw [reach_idle fs _ _ idle, ih]
  | up here later ih => rw [reach_up here, ih]
  | down here name notUp within later ih =>
      rw [reach_within here name notUp within, reachFrom_of_hasFolder later.hasFolder, ih]
  | follow here name notUp within link later ih =>
      rw [reach_within here name notUp within, reachFrom_of_link link, ih]

/-- A walk that arrives is one by steps.  The induction is on the links left, and then on the
segments: the target of a link may have more segments than were left of the path. -/
theorem reaches_of_reach {fs : FileSystem} {arrival : Arrival} :
    ∀ (links : Nat) (segments : List Bytes) (place : Location),
      fs.reach links place segments = .ok arrival → fs.Reaches links place segments arrival := by
  -- on the links left, and then on the segments, as the walk itself goes
  intro links
  induction links using Nat.strongRecOn with
  | ind links ihlinks =>
      intro segments
      induction segments with
      | nil =>
          intro place h
          cases hhere : fs.requireFolder place with
          | error e => rw [reach_of_requireFolder_error hhere] at h; cases h
          | ok _ =>
              have here := (fs.requireFolder_eq_ok_iff place).1 hhere
              rw [reach_done here] at h
              cases h
              exact .done here
      | cons segment rest ih =>
          intro place h
          cases hhere : fs.requireFolder place with
          | error e => rw [reach_of_requireFolder_error hhere] at h; cases h
          | ok _ =>
              have here := (fs.requireFolder_eq_ok_iff place).1 hhere
              cases name : isIdle segment with
              | true =>
                  rw [reach_idle fs links place name] at h
                  exact .idle here name (ih place h)
              | false =>
                  by_cases notUp : segment = dotDot
                  · subst notUp
                    rw [reach_up here] at h
                    exact .up here (ih _ h)
                  cases within : fs.placeIn place segment with
                  | error e => rw [reach_name here name notUp, within] at h; cases h
                  | ok inner =>
                      rw [reach_within here name notUp within] at h
                      -- what stands under the name decides: nothing, a link, or a node to go on
                      -- from
                      unfold reachFrom walkFrom at h
                      split at h
                      · cases h
                      · next target link =>
                        cases links with
                        | zero => cases h
                        | succ left =>
                            exact .follow here name notUp within link
                              (ihlinks left (by omega) _ _ h)
                      · exact .down here name notUp within (ih _ h)

theorem reach_eq_ok_iff (fs : FileSystem) (links : Nat) (place : Location)
    (segments : List Bytes) (arrival : Arrival) :
    fs.reach links place segments = .ok arrival ↔ fs.Reaches links place segments arrival :=
  ⟨reaches_of_reach links segments place, reach_of_reaches⟩

/-- To reach a folder is to walk to a place where one stands. -/
theorem reaches_iff_walk (fs : FileSystem) (links : Nat) (place : Location)
    (segments : List Bytes) (arrival : Arrival) :
    fs.Reaches links place segments arrival
      ↔ fs.walk links place segments = .ok arrival ∧ fs.HasFolder arrival.place := by
  rw [← reach_eq_ok_iff, ← requireFolder_eq_ok_iff]
  unfold reach
  cases fs.walk links place segments with
  | error e => simp [bind, Except.bind]
  | ok other =>
      show (fs.requireFolder other.place >>= _) = _ ↔ _
      cases hother : fs.requireFolder other.place with
      | error e =>
          constructor
          · intro h; cases h
          · rintro ⟨h, hhere⟩; cases h; rw [hother] at hhere; cases hhere
      | ok _ =>
          constructor
          · intro h; cases h; exact ⟨rfl, hother⟩
          · rintro ⟨h, -⟩; exact h

theorem Reaches.unique {fs : FileSystem} {links : Nat} {place : Location} {segments : List Bytes}
    {arrival other : Arrival} (h : fs.Reaches links place segments arrival)
    (hother : fs.Reaches links place segments other) : arrival = other :=
  Except.ok.inj ((reach_of_reaches h).symm.trans (reach_of_reaches hother))

theorem reaches_append_iff (fs : FileSystem) (links : Nat) (place : Location)
    (front back : List Bytes) (arrival : Arrival) :
    fs.Reaches links place (front ++ back) arrival ↔ ∃ middle,
      fs.Reaches links place front middle
      ∧ fs.Reaches middle.linksLeft middle.place back arrival := by
  rw [← reach_eq_ok_iff, reach_append]
  constructor
  · intro h
    obtain ⟨middle, hfront, hback⟩ := bind_eq_ok h
    exact ⟨middle, reaches_of_reach _ _ _ hfront, reaches_of_reach _ _ _ hback⟩
  · rintro ⟨middle, hfront, hback⟩
    rw [reach_of_reaches hfront]
    exact reach_of_reaches hback

/-- A walk goes through a name only where something stands. -/
theorem Reaches.exists_node {fs : FileSystem} {links : Nat} {place : Location} {segment : Bytes}
    {rest : List Bytes} {arrival : Arrival} (h : fs.Reaches links place (segment :: rest) arrival)
    (name : isIdle segment = false) (notUp : segment ≠ dotDot) :
    ∃ inner node, fs.placeIn place segment = .ok inner ∧ fs.node? inner = some node := by
  cases h with
  | idle here idle later =>
      rw [name] at idle
      cases idle
  | up here later => exact absurd rfl notUp
  | down here _ _ within later =>
      rcases later.hasFolder with hinner | hinner <;> exact ⟨_, _, within, hinner⟩
  | follow here _ _ within link later => exact ⟨_, _, within, link⟩

/-! ## §6. Names. -/

/-- **Only the names among the segments matter.** -/
theorem reach_namesAmong (fs : FileSystem) (segments : List Bytes) :
    ∀ (links : Nat) (place : Location),
      fs.reach links place (namesAmong segments) = fs.reach links place segments := by
  induction segments with
  | nil => intro links place; rfl
  | cons segment rest ih =>
      intro links place
      cases name : isIdle segment with
      | true => rw [Path.namesAmong_cons_of_idle name, reach_idle fs links place name, ih]
      | false =>
          rw [Path.namesAmong_cons_of_name name]
          -- the name may be a link, and then the rest begins elsewhere: hence for every place
          show fs.reach links place ([segment] ++ namesAmong rest)
            = fs.reach links place ([segment] ++ rest)
          rw [reach_append, reach_append]
          cases fs.reach links place [segment] with
          | error e => rfl
          | ok arrival => exact ih _ _

end Keyring.FileSystem
