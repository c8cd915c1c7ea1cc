import MethodMarkers.Text.Pattern
import Mathlib.Data.List.Basic

namespace MethodMarkers.Text

namespace Pattern

variable {α : Type} {p : Char → Bool} {a b : Pattern} {cs text rest : List Char}
  {place after : Place} {found found' captures : Captures}

structure Run (p : Char → Bool) (cs : List Char) : Prop where
  ne_nil : cs ≠ []
  all : ∀ c ∈ cs, p c = true

/-- Ways in which a pattern matches from one place to another, with the named parts found on the
way. Which of them is tried first does not show here. -/
def Spans : Pattern → Place → Captures → Place → Captures → Prop
  | empty, place, found, after, found' => after = place ∧ found' = found
  | one p, place, found, after, found' =>
    ∃ c cs, place.rest = c :: cs ∧ p c = true ∧ after = ⟨false, cs⟩ ∧ found' = found
  | literal cs, place, found, after, found' =>
    ∃ rest, place.rest = cs ++ rest ∧ after = ⟨place.isStart && cs.isEmpty, rest⟩ ∧ found' = found
  | run p, place, found, after, found' =>
    ∃ cs rest, place.rest = cs ++ rest ∧ Run p cs ∧ after = ⟨false, rest⟩ ∧ found' = found
  | seq a b, place, found, after, found' =>
    ∃ mid captures, Spans a place found mid captures ∧ Spans b mid captures after found'
  | choice a b, place, found, after, found' =>
    Spans a place found after found' ∨ Spans b place found after found'
  | named name a, place, found, after, found' =>
    ∃ captures, Spans a place found after captures ∧
      found' = (name, place.rest.take (place.rest.length - after.rest.length)) :: captures
  | textStart, place, found, after, found' =>
    place.isStart = true ∧ after = place ∧ found' = found
  | textEnd, place, found, after, found' =>
    (place.rest = [] ∨ place.rest = ['\n']) ∧ after = place ∧ found' = found

theorem dropLiteral?_eq_some_iff : dropLiteral? cs text = some rest ↔ text = cs ++ rest := by
  fun_induction dropLiteral? cs text with
  | case1 text => exact ⟨fun h => Option.some.inj h, fun h => congrArg some h⟩
  | case2 c cs => exact ⟨nofun, nofun⟩
  | case3 c cs text ih => rw [ih, List.cons_append, List.cons.injEq, and_iff_right rfl]
  | case4 c cs d text hne =>
    refine ⟨nofun, fun h => ?_⟩
    rw [List.cons_append] at h
    exact absurd (List.cons.inj h).1.symm hne

theorem Run.singleton {c : Char} (h : p c = true) : Run p [c] :=
  ⟨List.cons_ne_nil c [], List.forall_mem_singleton.2 h⟩

theorem Run.cons {c : Char} (hc : p c = true) (h : Run p cs) : Run p (c :: cs) :=
  ⟨List.cons_ne_nil c cs, List.forall_mem_cons.2 ⟨hc, h.all⟩⟩

theorem Run.of_mem_getLast? {c : Char} (h : Run p cs) (hc : c ∈ (text ++ cs).getLast?) :
    p c = true := by
  have hlast := List.getLast?_eq_some_getLast h.ne_nil
  rw [List.getLast?_append, hlast] at hc
  cases hc
  exact h.all _ (List.getLast_mem h.ne_nil)

theorem exists_of_matchRun {next : List Char → Option α} {r : α}
    (h : matchRun p next text = some r) :
    ∃ cs rest, text = cs ++ rest ∧ Run p cs ∧ next rest = some r := by
  induction text with
  | nil => cases h
  | cons c text ih =>
    rw [matchRun] at h
    split at h
    · next hp =>
      rw [Option.orElse_eq_orElse, Option.orElse_eq_or, Option.or_eq_some_iff] at h
      rcases h with h | ⟨-, h⟩
      · obtain ⟨cs, rest, rfl, hrun, hn⟩ := ih h
        exact ⟨c :: cs, rest, rfl, hrun.cons hp, hn⟩
      · exact ⟨[c], text, rfl, .singleton hp, h⟩
    · cases h

theorem matchRun_isSome {next : List Char → Option α} (hr : Run p cs)
    (h : (next rest).isSome = true) : (matchRun p next (cs ++ rest)).isSome = true := by
  induction cs with
  | nil => exact absurd rfl hr.ne_nil
  | cons c cs ih =>
    obtain ⟨hp, hall⟩ := List.forall_mem_cons.1 hr.all
    rw [List.cons_append, matchRun, if_pos hp, Option.orElse_eq_orElse, Option.orElse_eq_or,
      Option.isSome_or, Bool.or_eq_true]
    cases cs with
    | nil => exact .inr h
    | cons d cs => exact .inl (ih ⟨List.cons_ne_nil d cs, hall⟩)

theorem exists_of_attempt {next : Next α} {r : α} (h : attempt a next place found = some r) :
    ∃ after found', Spans a place found after found' ∧ next after found' = some r := by
  induction a generalizing next place found with
  | empty => exact ⟨place, found, ⟨rfl, rfl⟩, h⟩
  | one p =>
    rw [attempt] at h
    split at h
    · cases h
    · next c cs hr =>
      split at h
      · next hp => exact ⟨_, _, ⟨c, cs, hr, hp, rfl, rfl⟩, h⟩
      · cases h
  | literal cs =>
    rw [attempt] at h
    split at h
    · next rest hr => exact ⟨_, _, ⟨rest, dropLiteral?_eq_some_iff.1 hr, rfl, rfl⟩, h⟩
    · cases h
  | run p =>
    obtain ⟨cs, rest, hr, hrun, h⟩ := exists_of_matchRun h
    exact ⟨_, _, ⟨cs, rest, hr, hrun, rfl, rfl⟩, h⟩
  | seq a b iha ihb =>
    obtain ⟨mid, captures, hs, h⟩ := iha h
    obtain ⟨after, found', hs', h⟩ := ihb h
    exact ⟨after, found', ⟨mid, captures, hs, hs'⟩, h⟩
  | choice a b iha ihb =>
    rw [attempt, Option.orElse_eq_orElse, Option.orElse_eq_or, Option.or_eq_some_iff] at h
    rcases h with h | ⟨-, h⟩
    · obtain ⟨after, found', hs, h⟩ := iha h
      exact ⟨after, found', .inl hs, h⟩
    · obtain ⟨after, found', hs, h⟩ := ihb h
      exact ⟨after, found', .inr hs, h⟩
  | named name a ih =>
    obtain ⟨after, captures, hs, h⟩ := ih h
    exact ⟨after, _, ⟨captures, hs, rfl⟩, h⟩
  | textStart =>
    rw [attempt] at h
    split at h
    · next hs => exact ⟨place, found, ⟨hs, rfl, rfl⟩, h⟩
    · cases h
  | textEnd =>
    rw [attempt] at h
    split at h
    · next hr => exact ⟨place, found, ⟨hr, rfl, rfl⟩, h⟩
    · cases h

/-- Where there is a way to match behind which the rest succeeds, one is found: a choice is given up
when the rest fails behind it. -/
theorem attempt_isSome {next : Next α} (hs : Spans a place found after found')
    (h : (next after found').isSome = true) : (attempt a next place found).isSome = true := by
  induction a generalizing next place found after found' with
  | empty =>
    obtain ⟨rfl, rfl⟩ := hs
    exact h
  | one p =>
    obtain ⟨c, cs, hr, hp, rfl, rfl⟩ := hs
    rw [attempt, hr]
    dsimp only
    rwa [if_pos hp]
  | literal cs =>
    obtain ⟨rest, hr, rfl, rfl⟩ := hs
    rw [attempt, dropLiteral?_eq_some_iff.2 hr]
    exact h
  | run p =>
    obtain ⟨cs, rest, hr, hrun, rfl, rfl⟩ := hs
    rw [attempt, hr]
    exact matchRun_isSome hrun h
  | seq a b iha ihb =>
    obtain ⟨mid, captures, hs, hs'⟩ := hs
    exact iha hs (ihb hs' h)
  | choice a b iha ihb =>
    rw [attempt, Option.orElse_eq_orElse, Option.orElse_eq_or, Option.isSome_or, Bool.or_eq_true]
    rcases hs with hs | hs
    · exact .inl (iha hs h)
    · exact .inr (ihb hs h)
  | named name a ih =>
    obtain ⟨captures, hs, rfl⟩ := hs
    exact ih hs h
  | textStart =>
    obtain ⟨hs, rfl, rfl⟩ := hs
    rw [attempt, if_pos hs]
    exact h
  | textEnd =>
    obtain ⟨hr, rfl, rfl⟩ := hs
    rw [attempt, if_pos hr]
    exact h

def first? (a : Pattern) (place : Place) : Option Captures :=
  attempt a (fun _ found => some found) place []

theorem first?_isSome_iff :
    (first? a place).isSome = true ↔ ∃ after captures, Spans a place [] after captures := by
  constructor
  · intro h
    obtain ⟨captures, h⟩ := Option.isSome_iff_exists.1 h
    obtain ⟨after, found, hs, -⟩ := exists_of_attempt h
    exact ⟨after, found, hs⟩
  · rintro ⟨after, captures, hs⟩
    exact attempt_isSome hs rfl

theorem searchFrom_cons (a : Pattern) (isStart : Bool) (c : Char) (cs : List Char) :
    searchFrom a isStart (c :: cs) =
      (first? a ⟨isStart, c :: cs⟩).or (searchFrom a false cs) := by
  rw [searchFrom, Option.orElse_eq_orElse, Option.orElse_eq_or, first?]

/-- A search finds the first match at a place in front of which there is none. -/
theorem exists_of_searchFrom {isStart : Bool} (h : searchFrom a isStart cs = some captures) :
    ∃ before rest, cs = before ++ rest ∧
      first? a ⟨isStart && before.isEmpty, rest⟩ = some captures ∧
      ∀ earlier later, cs = earlier ++ later → earlier.length < before.length →
        first? a ⟨isStart && earlier.isEmpty, later⟩ = none := by
  induction cs generalizing isStart with
  | nil => exact ⟨[], [], rfl, by rwa [List.isEmpty_nil, Bool.and_true], fun _ _ _ hl => nomatch hl⟩
  | cons c cs ih =>
    rw [searchFrom_cons, Option.or_eq_some_iff] at h
    rcases h with h | ⟨hnone, h⟩
    · exact ⟨[], c :: cs, rfl, by rwa [List.isEmpty_nil, Bool.and_true], fun _ _ _ hl => nomatch hl⟩
    · obtain ⟨before, rest, rfl, hfirst, hleft⟩ := ih h
      refine ⟨c :: before, rest, rfl, ?_, fun earlier later he hl => ?_⟩
      · rwa [List.isEmpty_cons, Bool.and_false]
      · cases earlier with
        | nil =>
          rw [List.nil_append] at he
          rwa [← he, List.isEmpty_nil, Bool.and_true]
        | cons d earlier =>
          obtain ⟨-, he⟩ := List.cons.inj he
          rw [List.isEmpty_cons, Bool.and_false]
          exact hleft earlier later he (Nat.lt_of_succ_lt_succ hl)

theorem searchFrom_isSome {isStart : Bool} (before : List Char)
    (h : (first? a ⟨isStart && before.isEmpty, rest⟩).isSome = true) :
    (searchFrom a isStart (before ++ rest)).isSome = true := by
  induction before generalizing isStart with
  | nil =>
    rw [List.isEmpty_nil, Bool.and_true] at h
    cases rest with
    | nil => exact h
    | cons c rest =>
      rw [List.nil_append, searchFrom_cons, Option.isSome_or, h, Bool.true_or]
  | cons c before ih =>
    rw [List.cons_append, searchFrom_cons, Option.isSome_or, Bool.or_eq_true]
    rw [List.isEmpty_cons, Bool.and_false] at h
    exact .inr (ih h)

section Compound

theorem spans_runOrEmpty : Spans (runOrEmpty p) place found after found' ↔
    ∃ cs rest, place.rest = cs ++ rest ∧ (∀ c ∈ cs, p c = true) ∧
      after = ⟨place.isStart && cs.isEmpty, rest⟩ ∧ found' = found := by
  constructor
  · rintro (⟨cs, rest, hr, hrun, rfl, rfl⟩ | ⟨rfl, rfl⟩)
    · refine ⟨cs, rest, hr, hrun.all, ?_, rfl⟩
      rw [List.isEmpty_eq_false_iff.2 hrun.ne_nil, Bool.and_false]
    · refine ⟨[], after.rest, rfl, nofun, ?_, rfl⟩
      rw [List.isEmpty_nil, Bool.and_true]
  · rintro ⟨cs, rest, hr, hall, rfl, rfl⟩
    cases cs with
    | nil =>
      refine .inr ⟨?_, rfl⟩
      rw [List.isEmpty_nil, Bool.and_true, ← List.nil_append rest, ← hr]
    | cons c cs =>
      refine .inl ⟨c :: cs, rest, hr, ⟨List.cons_ne_nil c cs, hall⟩, ?_, rfl⟩
      rw [List.isEmpty_cons, Bool.and_false]

theorem spans_anyOf {as : List Pattern} : Spans (anyOf as) place found after found' ↔
    ∃ a ∈ as, Spans a place found after found' := by
  fun_induction anyOf as with
  | case1 =>
    constructor
    · rintro ⟨c, cs, -, hp, -⟩
      cases hp
    · rintro ⟨a, ha, -⟩
      cases ha
  | case2 a =>
    rw [List.exists_mem_cons_iff]
    exact (or_iff_left fun ⟨_, ha, _⟩ => nomatch ha).symm
  | case3 a b as ih =>
    rw [List.exists_mem_cons_iff, ← ih]
    rfl

end Compound

end Pattern

end MethodMarkers.Text
