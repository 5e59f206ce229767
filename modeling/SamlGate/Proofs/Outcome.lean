import Mathlib.Data.List.Forall2
import SamlGate.Error

/-!
Outcomes of checks in sequence.

A sequence of checks succeeds exactly when each of them does, with the value that the next one takes. The
lemmas here take such a sequence apart, one step at a time.
-/

namespace SamlGate.Outcome

variable {ε α β : Type}

theorem bind_eq_ok_iff {step : Except ε α} {next : α → Except ε β} {result : β} :
    step >>= next = .ok result ↔ ∃ value, step = .ok value ∧ next value = .ok result := by
  cases step with
  | error fault =>
      simp [bind, Except.bind]
  | ok value =>
      simp [bind, Except.bind]

theorem bind_eq_error_iff {step : Except ε α} {next : α → Except ε β} {fault : ε} :
    step >>= next = .error fault ↔
      step = .error fault ∨ ∃ value, step = .ok value ∧ next value = .error fault := by
  cases step with
  | error found =>
      simp [bind, Except.bind]
  | ok value =>
      simp [bind, Except.bind]

theorem map_eq_ok_iff {step : Except ε α} {rewrite : α → β} {result : β} :
    step.map rewrite = .ok result ↔ ∃ value, step = .ok value ∧ rewrite value = result := by
  cases step with
  | error fault =>
      simp [Except.map]
  | ok value =>
      simp [Except.map]

theorem toOption_eq_some_iff {step : Except ε α} {value : α} :
    step.toOption = some value ↔ step = .ok value := by
  cases step with
  | error fault =>
      simp [Except.toOption]
  | ok found =>
      simp [Except.toOption]

theorem mapM_eq_ok_iff {step : α → Except ε β} {inputs : List α} {results : List β} :
    inputs.mapM step = .ok results ↔
      List.Forall₂ (fun input result => step input = .ok result) inputs results := by
  induction inputs generalizing results with
  | nil =>
      rw [List.mapM_nil, List.forall₂_nil_left_iff]
      exact ⟨fun same => (Except.ok.inj same).symm, fun same => congrArg Except.ok same.symm⟩
  | cons input rest ih =>
      rw [List.mapM_cons, bind_eq_ok_iff, List.forall₂_cons_left_iff]
      constructor
      · rintro ⟨result, first, afterFirst⟩
        obtain ⟨others, remaining, same⟩ := bind_eq_ok_iff.mp afterFirst
        exact ⟨result, others, first, ih.mp remaining, (Except.ok.inj same).symm⟩
      · rintro ⟨result, others, first, remaining, same⟩
        exact ⟨result, first, bind_eq_ok_iff.mpr ⟨others, ih.mpr remaining, congrArg Except.ok same.symm⟩⟩

theorem exists_input_of_mapM_eq_error {step : α → Except ε β} {inputs : List α} {fault : ε}
    (fails : inputs.mapM step = .error fault) : ∃ input ∈ inputs, step input = .error fault := by
  induction inputs with
  | nil =>
      cases fails
  | cons input rest ih =>
      rw [List.mapM_cons] at fails
      rcases bind_eq_error_iff.mp fails with atFirst | ⟨result, _, afterFirst⟩
      · exact ⟨input, List.mem_cons_self, atFirst⟩
      · rcases bind_eq_error_iff.mp afterFirst with later | ⟨others, _, impossible⟩
        · obtain ⟨found, among, atFound⟩ := ih later
          exact ⟨found, List.mem_cons_of_mem _ among, atFound⟩
        · cases impossible

theorem mapM_eq_some_iff {step : α → Option β} {inputs : List α} {results : List β} :
    inputs.mapM step = some results ↔
      List.Forall₂ (fun input result => step input = some result) inputs results := by
  induction inputs generalizing results with
  | nil =>
      rw [List.mapM_nil, List.forall₂_nil_left_iff]
      exact ⟨fun same => (Option.some.inj same).symm, fun same => congrArg some same.symm⟩
  | cons input rest ih =>
      rw [List.mapM_cons, List.forall₂_cons_left_iff]
      constructor
      · intro succeeds
        obtain ⟨result, first, afterFirst⟩ := Option.bind_eq_some_iff.mp succeeds
        obtain ⟨others, remaining, same⟩ := Option.bind_eq_some_iff.mp afterFirst
        exact ⟨result, others, first, ih.mp remaining, (Option.some.inj same).symm⟩
      · rintro ⟨result, others, first, remaining, same⟩
        refine Option.bind_eq_some_iff.mpr ⟨result, first, ?_⟩
        exact Option.bind_eq_some_iff.mpr ⟨others, ih.mpr remaining, congrArg some same.symm⟩

theorem exists_input_of_mem {relation : α → β → Prop} {inputs : List α} {results : List β} {result : β}
    (related : List.Forall₂ relation inputs results) (member : result ∈ results) :
    ∃ input ∈ inputs, relation input result := by
  induction related with
  | nil =>
      cases member
  | cons atFirst _ ih =>
      rcases List.mem_cons.mp member with same | later
      · subst same
        exact ⟨_, List.mem_cons_self, atFirst⟩
      · obtain ⟨input, among, atInput⟩ := ih later
        exact ⟨input, List.mem_cons_of_mem _ among, atInput⟩

/-- What follows a check that is made on a condition only is reached exactly when the check passes wherever
the condition holds. -/
theorem guarded_eq_ok_iff {condition : Bool} {check : Except ε PUnit} {next : Except ε β} {result : β} :
    (if condition = true then check >>= fun _ => next else next) = .ok result ↔
      (condition = true → check = .ok PUnit.unit) ∧ next = .ok result := by
  cases condition with
  | false =>
      simp
  | true =>
      rw [if_pos rfl, bind_eq_ok_iff]
      constructor
      · rintro ⟨_, passes, reached⟩
        exact ⟨fun _ => passes, reached⟩
      · rintro ⟨passes, reached⟩
        exact ⟨PUnit.unit, passes rfl, reached⟩

/-! ### Rejections among failures -/

@[simp] theorem lift_eq_ok_iff {outcome : Except Error α} {value : α} :
    (liftM outcome : Except Failure α) = .ok value ↔ outcome = .ok value := by
  cases outcome with
  | error fault =>
      exact iff_of_false nofun nofun
  | ok found =>
      exact ⟨fun same => congrArg Except.ok (Except.ok.inj same),
        fun same => congrArg Except.ok (Except.ok.inj same)⟩

theorem lift_eq_error_iff {outcome : Except Error α} {failure : Failure} :
    (liftM outcome : Except Failure α) = .error failure ↔
      ∃ error, outcome = .error error ∧ failure = .rejected error := by
  cases outcome with
  | error fault =>
      constructor
      · intro same
        exact ⟨fault, rfl, (Except.error.inj same).symm⟩
      · rintro ⟨error, found, rfl⟩
        exact congrArg (fun error => Except.error (Failure.rejected error)) (Except.error.inj found)
  | ok found =>
      exact iff_of_false nofun nofun

/-! ### Views -/

/-- Two sequences have the same outcome if what their first steps give looks the same, and what follows
depends on the looks only. -/
theorem bind_congr_of_view {γ : Type} {view : α → γ} {step stepToo : Except ε α}
    {next nextToo : α → Except ε β}
    (same : step.map view = stepToo.map view)
    (alike : ∀ value other, view value = view other → next value = nextToo other) :
    step >>= next = stepToo >>= nextToo := by
  cases step with
  | error fault =>
      cases stepToo with
      | error faultToo => exact congrArg Except.error (Except.error.inj same)
      | ok other => cases same
  | ok value =>
      cases stepToo with
      | error faultToo => cases same
      | ok other => exact alike value other (Except.ok.inj same)

theorem mapM_congr_of_view {γ : Type} {view : α → γ} {step : α → Except ε β} {inputs others : List α}
    (same : inputs.map view = others.map view)
    (alike : ∀ value other, view value = view other → step value = step other) :
    inputs.mapM step = others.mapM step := by
  induction inputs generalizing others with
  | nil =>
      cases others with
      | nil => rfl
      | cons other others => cases same
  | cons input inputs ih =>
      cases others with
      | nil => cases same
      | cons other others =>
          obtain ⟨here, later⟩ := List.cons.inj same
          rw [List.mapM_cons, List.mapM_cons, alike input other here, ih later]

end SamlGate.Outcome
