import Mathlib.Data.List.Forall2

/-!
# Answers in sequence

An answer that is bound to a second one succeeds if and only if both do, and the answers for all items of
a list succeed if and only if each does; the results then stand beside the items. The failure of a
sequence is that of one of its answers.
-/

namespace Retrieval

variable {ε α β : Type}

theorem exists_of_mem_forall₂ {relation : α → β → Prop} {left : List α} {right : List β}
    (each : List.Forall₂ relation left right) {first : α} (member : first ∈ left) :
    ∃ second ∈ right, relation first second := by
  induction each with
  | nil => simp at member
  | cons related _ induction =>
      rcases List.mem_cons.mp member with rfl | later
      · exact ⟨_, List.mem_cons_self, related⟩
      · obtain ⟨second, among, relates⟩ := induction later
        exact ⟨second, List.mem_cons_of_mem _ among, relates⟩

theorem map_eq_of_forall₂ {γ : Type} {first : α → γ} {second : β → γ} {left : List α} {right : List β}
    (each : List.Forall₂ (fun item other => first item = second other) left right) :
    left.map first = right.map second := by
  induction each with
  | nil => rfl
  | cons same _ induction => rw [List.map_cons, List.map_cons, same, induction]

/-- What stands beside two lists in a row falls into what stands beside each of them. -/
theorem exists_of_forall₂_append {relation : α → β → Prop} {whole : List α}
    {front back : List β} (each : List.Forall₂ relation whole (front ++ back)) :
    ∃ leading trailing, whole = leading ++ trailing ∧ List.Forall₂ relation leading front ∧
      List.Forall₂ relation trailing back :=
  ⟨whole.take front.length, whole.drop front.length, (List.take_append_drop _ whole).symm,
    List.forall₂_take_append _ _ _ each, List.forall₂_drop_append _ _ _ each⟩

/-- What stands beside a list beside another one stands beside that one. -/
theorem forall₂_comp {γ : Type} {first : α → β → Prop} {second : β → γ → Prop} {both : α → γ → Prop}
    {left : List α} {middle : List β} {right : List γ} (each : List.Forall₂ first left middle)
    (next : List.Forall₂ second middle right)
    (combines : ∀ {item between result}, first item between → second between result →
      both item result) : List.Forall₂ both left right := by
  induction each generalizing right with
  | nil => exact List.forall₂_nil_left_iff.mp next ▸ .nil
  | cons related _ induction =>
      obtain ⟨result, later, relates, nextLater, rfl⟩ := List.forall₂_cons_left_iff.mp next
      exact .cons (combines related relates) (induction nextLater)

theorem bind_eq_ok_iff {answer : Except ε α} {next : α → Except ε β} {result : β} :
    (answer >>= next) = .ok result ↔ ∃ found, answer = .ok found ∧ next found = .ok result := by
  cases answer <;> simp [bind, Except.bind]

theorem map_eq_ok_iff {answer : Except ε α} {change : α → β} {result : β} :
    answer.map change = .ok result ↔ ∃ found, answer = .ok found ∧ change found = result := by
  cases answer <;> simp [Except.map]

/-- All answers succeed if and only if each one does. -/
theorem mapM_eq_ok_iff {answer : α → Except ε β} {items : List α} {results : List β} :
    items.mapM answer = .ok results ↔
      List.Forall₂ (fun item result => answer item = .ok result) items results := by
  induction items generalizing results with
  | nil => cases results <;> simp [pure, Except.pure]
  | cons item items induction =>
      rw [List.mapM_cons, bind_eq_ok_iff]
      simp only [bind_eq_ok_iff, induction, List.forall₂_cons_left_iff, pure, Except.pure,
        Except.ok.injEq]
      constructor
      · rintro ⟨first, answered, later, answeredLater, rfl⟩
        exact ⟨first, later, answered, answeredLater, rfl⟩
      · rintro ⟨first, later, answered, answeredLater, rfl⟩
        exact ⟨first, answered, later, answeredLater, rfl⟩

theorem mapM_congr {answer other : α → Except ε β} {items : List α}
    (same : ∀ item ∈ items, answer item = other item) : items.mapM answer = items.mapM other := by
  induction items with
  | nil => rfl
  | cons item items induction =>
      obtain ⟨first, later⟩ := List.forall_mem_cons.mp same
      rw [List.mapM_cons, List.mapM_cons, first, induction later]

/-- The answers in a list of answers are those for the items. -/
theorem mem_iff_of_mapM_eq_ok {answer : α → Except ε β} {items : List α} {answers : List β}
    (answered : items.mapM answer = .ok answers) {found : β} :
    found ∈ answers ↔ ∃ item ∈ items, answer item = .ok found := by
  induction mapM_eq_ok_iff.mp answered with
  | nil => simp
  | cons first later induction =>
      simp [induction (mapM_eq_ok_iff.mpr later), first, eq_comm]

/-- If every answer stands rightly beside its item, so do they all. -/
theorem exists_forall₂_answers {answer : α → Except ε β} {right : α → β → Prop} {items : List α}
    (each : ∀ item ∈ items, ∃ found, answer item = .ok found ∧ right item found) :
    ∃ answers, items.mapM answer = .ok answers ∧ List.Forall₂ right items answers := by
  induction items with
  | nil => exact ⟨[], rfl, .nil⟩
  | cons item items induction =>
      obtain ⟨⟨found, answered, isRight⟩, later⟩ := List.forall_mem_cons.mp each
      obtain ⟨answers, answeredLater, areRight⟩ := induction later
      exact ⟨found :: answers, by rw [List.mapM_cons, answered, answeredLater]; rfl,
        .cons isRight areRight⟩

/-- If every answer is right, so is the list of answers. -/
theorem exists_mapM_eq_ok {answer : α → Except ε β} {right : β → Prop} {items : List α}
    (each : ∀ item ∈ items, ∃ found, answer item = .ok found ∧ right found) :
    ∃ answers, items.mapM answer = .ok answers ∧ answers.length = items.length ∧
      ∀ found ∈ answers, right found := by
  obtain ⟨answers, answered, beside⟩ := exists_forall₂_answers each
  refine ⟨answers, answered, beside.length_eq.symm, fun found member => ?_⟩
  obtain ⟨item, inside, isFound⟩ := (mem_iff_of_mapM_eq_ok answered).mp member
  obtain ⟨other, isOther, isRight⟩ := each item inside
  exact Except.ok.inj (isOther.symm.trans isFound) ▸ isRight

/-- If every answer succeeds, so does the list of answers. -/
theorem exists_answers {answer : α → Except ε β} {items : List α}
    (each : ∀ item ∈ items, ∃ found, answer item = .ok found) :
    ∃ answers, items.mapM answer = .ok answers := by
  obtain ⟨answers, answered, -⟩ := @exists_mapM_eq_ok _ _ _ answer (fun _ => True) items
    fun item member => (each item member).imp fun _ found => ⟨found, trivial⟩
  exact ⟨answers, answered⟩

/-- The answer, if it is a failure, has a cause of the given kind. -/
def FailsBy (kind : ε → Prop) (answer : Except ε α) : Prop :=
  ∀ cause, answer = .error cause → kind cause

namespace FailsBy

variable {kind : ε → Prop} {answer : Except ε α}

theorem ok (value : α) : FailsBy kind (.ok value) := by
  rintro cause ⟨⟩

theorem error {cause : ε} (ofKind : kind cause) : FailsBy kind (.error cause : Except ε α) := by
  rintro cause ⟨⟩
  exact ofKind

theorem mono {larger : ε → Prop} (fails : FailsBy kind answer)
    (weaker : ∀ cause, kind cause → larger cause) : FailsBy larger answer :=
  fun cause failed => weaker cause (fails cause failed)

theorem map (change : α → β) (fails : FailsBy kind answer) : FailsBy kind (answer.map change) := by
  cases answer with
  | error cause => exact .error (fails cause rfl)
  | ok value => exact .ok _

theorem bind {next : α → Except ε β} (fails : FailsBy kind answer)
    (later : ∀ value, answer = .ok value → FailsBy kind (next value)) :
    FailsBy kind (answer >>= next) := by
  cases answer with
  | error cause => exact .error (fails cause rfl)
  | ok value => exact later value rfl

theorem mapM {items : List α} {answer : α → Except ε β}
    (each : ∀ item ∈ items, FailsBy kind (answer item)) : FailsBy kind (items.mapM answer) := by
  induction items with
  | nil => exact .ok _
  | cons item items induction =>
      rw [List.forall_mem_cons] at each
      rw [List.mapM_cons]
      exact each.1.bind fun _ _ => (induction each.2).bind fun _ _ => .ok _

/-- A walk fails as its steps do, if these fail so from the states that it comes through. -/
theorem foldlM (invariant : β → Prop) {step : β → α → Except ε β} (items : List α) {start : β}
    (begins : invariant start)
    (fails : ∀ state item, invariant state → FailsBy kind (step state item))
    (keeps : ∀ state item next, invariant state → step state item = .ok next → invariant next) :
    FailsBy kind (items.foldlM step start) := by
  induction items generalizing start with
  | nil => exact .ok _
  | cons item items induction =>
      rw [List.foldlM_cons]
      exact (fails start item begins).bind fun next stepped =>
        induction (keeps start item next begins stepped)

end FailsBy

end Retrieval
