import SamlGate.Codec.Deflate.Inflation

/-!
What is inflated does not depend on how much of it is asked for.

Inflating stops early only when all that is asked for is out. So a stream that has come to its end before
that gives the same octets, however much is asked for, as long as it is more than these, and as many as are
asked for if it is less. What has to be shown is that the pauses counted for the other amount suffice: a pause
empties the window, or it uses up a portion, or a portion is due behind it.
-/

namespace SamlGate.Deflate

/-! ### One step -/

private theorem size_copied (distance length : Nat) (output : Array UInt8) :
    (copied distance length output).size = output.size + length := by
  induction length generalizing output with
  | zero =>
      rfl
  | succ length ih =>
      rw [copied, ih, Array.size_push]
      omega

private theorem Machine.size_le_of_step {machine next : Machine} {bound : Nat}
    (goes : machine.step bound = .going next) : machine.output.size ≤ next.output.size := by
  unfold Machine.step Machine.after at goes
  repeat' split at goes
  all_goals cases goes
  all_goals simp [size_copied]

/-- What is known of a machine that stands still: it has filled the window if it is for that, and if it
lacks octets a larger window changes nothing. -/
structure Machine.Stands (bound : Nat) (cause : Pause) (machine : Machine) : Prop where
  full : cause = .full → bound ≤ machine.output.size
  truncated : cause = .fault .truncated →
    ∀ other, machine.output.size < other → machine.step other = .paused cause machine

private theorem Machine.stands_of_step {machine stopped : Machine} {bound : Nat} {cause : Pause}
    (paused : machine.step bound = .paused cause stopped) : stopped = machine ∧ machine.Stands bound cause := by
  have still : stopped = machine := by
    unfold Machine.step Machine.after at paused
    repeat' split at paused
    all_goals cases paused
    all_goals rfl
  subst still
  constructor
  · rfl
  · constructor
    · intro isFull
      subst isFull
      unfold Machine.step Machine.after at paused
      repeat' split at paused
      all_goals cases paused
      all_goals assumption
    · intro isTruncated other room
      subst isTruncated
      unfold Machine.step Machine.after at paused ⊢
      repeat' split at paused
      all_goals cases paused
      all_goals simp_all

/-! ### From pause to pause -/

private theorem Machine.run_stands (bound steps : Nat) (machine : Machine) :
    machine.output.size ≤ (machine.run bound steps).2.output.size ∧
      (machine.run bound steps).2.Stands bound (machine.run bound steps).1 := by
  induction steps generalizing machine with
  | zero =>
      exact ⟨Nat.le_refl _, nofun, nofun⟩
  | succ steps ih =>
      unfold Machine.run
      cases progress : machine.step bound with
      | going next =>
          have later := ih next
          exact ⟨Nat.le_trans (Machine.size_le_of_step progress) later.1, later.2⟩
      | paused cause stopped =>
          have stands := Machine.stands_of_step progress
          rw [stands.1]
          exact ⟨Nat.le_refl _, stands.2⟩

private theorem Machine.resume_stands {machine stopped : Machine} {cause : Pause}
    (resumed : machine.resume = (cause, stopped)) :
    machine.output.size ≤ stopped.output.size ∧
      stopped.Stands ((machine.output.size / windowSize + 1) * windowSize) cause := by
  have stands := Machine.run_stands ((machine.output.size / windowSize + 1) * windowSize)
    (3 * machine.bits.remaining + 4) machine
  rw [← Machine.resume, resumed] at stands
  exact stands

private theorem Machine.window_lt_of_resume_full {machine stopped : Machine}
    (resumed : machine.resume = (.full, stopped)) :
    machine.output.size / windowSize < stopped.output.size / windowSize :=
  (Nat.le_div_iff_mul_le (by decide)).mpr ((Machine.resume_stands resumed).2.full rfl)

/-- A machine that lacks octets is where it was when it is resumed without any. -/
theorem Machine.resume_truncated {machine stopped : Machine}
    (resumed : machine.resume = (.fault .truncated, stopped)) :
    stopped.resume = (.fault .truncated, stopped) := by
  have room : stopped.output.size < (stopped.output.size / windowSize + 1) * windowSize := by
    rw [Nat.mul_comm]
    exact Nat.lt_mul_div_succ _ (by decide)
  have again := (Machine.resume_stands resumed).2.truncated rfl _ room
  unfold Machine.resume
  rw [Machine.run, again]

/-! ### Whole streams -/

private theorem Machine.size_le_of_drain {asked pauses : Nat} {used : Bool} {portions : List Octets}
    {machine : Machine} {output : Array UInt8}
    (drained : machine.drain asked pauses used portions = some output) :
    machine.output.size ≤ output.size := by
  induction pauses generalizing used portions machine with
  | zero =>
      cases drained
  | succ pauses ih =>
      unfold Machine.drain at drained
      split at drained
      · cases drained
        exact Nat.le_refl _
      · simp only at drained
        generalize (if used = true then portions.head? else none) = due at drained
        generalize (if used = true then portions.tail else portions) = further at drained
        generalize resumed : Machine.resume _ = pause at drained
        rcases pause with ⟨cause, stopped⟩
        have grows := (Machine.resume_stands resumed).1
        cases cause with
        | finished =>
            cases drained
            exact grows
        | full =>
            exact Nat.le_trans grows (ih drained)
        | fault cause =>
            cases cause with
            | truncated =>
                simp only at drained
                split at drained
                · cases drained
                · exact Nat.le_trans grows (ih drained)
            | corrupt =>
                cases drained

private theorem Machine.drain_truncated {asked pauses : Nat} {machine : Machine}
    (notOut : machine.output.size < asked) (stands : machine.resume = (.fault .truncated, machine)) :
    machine.drain asked pauses true [] = none := by
  cases pauses with
  | zero =>
      rfl
  | succ pauses =>
      have unfed : ({ machine with bits := machine.bits.extended [] } : Machine) = machine := by
        simp [Bits.extended]
      unfold Machine.drain
      rw [if_neg (by omega)]
      simp [unfed, stands]

/-- A run that lacked octets and still came to its end had another portion to take. -/
private theorem Machine.portions_ne_nil_of_drain {asked pauses : Nat} {used : Bool} {portions : List Octets}
    {machine stopped : Machine} {output : Array UInt8}
    (resumed : machine.resume = (.fault .truncated, stopped))
    (drained : stopped.drain asked pauses true (if used then portions.tail else portions) = some output)
    (ended : output.size < asked) : portions ≠ [] := by
  intro none
  rw [none, List.tail_nil, ite_self] at drained
  have within := Machine.size_le_of_drain drained
  have stands := Machine.resume_truncated resumed
  rw [Machine.drain_truncated (by omega) stands] at drained
  cases drained

/-- How many times a machine may still pause before `asked` octets are out: for each portion, for each
window, once before the next portion is due, and at the end. -/
def Machine.pausesLeft (asked : Nat) (used : Bool) (portions : List Octets) (machine : Machine) : Nat :=
  portions.length + (asked / windowSize - machine.output.size / windowSize)
    + (if used || portions.isEmpty then 0 else 1) + 1

/-- A pause at a full window leaves fewer pauses. -/
theorem Machine.pausesLeft_lt_of_full {asked : Nat} {used usedToo : Bool} {portions : List Octets}
    {machine stopped : Machine}
    (window : machine.output.size / windowSize < stopped.output.size / windowSize)
    (reached : stopped.output.size / windowSize ≤ asked / windowSize) :
    stopped.pausesLeft asked usedToo (if used then portions.tail else portions) <
      machine.pausesLeft asked used portions := by
  unfold Machine.pausesLeft
  cases used <;> cases portions <;> simp <;> (try split) <;> omega

/-- So does one at the end of a portion that others follow. -/
theorem Machine.pausesLeft_lt_of_portion {asked : Nat} {used : Bool} {portions : List Octets}
    {machine stopped : Machine} (another : portions ≠ [])
    (grows : machine.output.size ≤ stopped.output.size) :
    stopped.pausesLeft asked true (if used then portions.tail else portions) <
      machine.pausesLeft asked used portions := by
  have windows : machine.output.size / windowSize ≤ stopped.output.size / windowSize :=
    Nat.div_le_div_right grows
  unfold Machine.pausesLeft
  cases portions with
  | nil =>
      contradiction
  | cons portion portions =>
      cases used <;> simp <;> omega

/-- A run that comes to its end answers the same whatever it is asked for, but for stopping early: then it
answers no more than the whole, and no less than it is asked for. -/
theorem Machine.exists_drain_of_ended {asked other pauses pausesToo : Nat} {used : Bool}
    {portions : List Octets} {machine : Machine} {output : Array UInt8}
    (drained : machine.drain other pauses used portions = some output) (ended : output.size < other)
    (some : 0 < pausesToo)
    (enough : machine.output.size < asked → machine.pausesLeft asked used portions < pausesToo) :
    ∃ front, machine.drain asked pausesToo used portions = .some front ∧
      (front = output ∨ asked ≤ front.size ∧ front.size ≤ output.size) := by
  -- Until what is asked for is out, both runs take the same way from pause to pause.
  induction pauses generalizing pausesToo used portions machine with
  | zero =>
      cases drained
  | succ pauses ih =>
      cases pausesToo with
      | zero =>
          contradiction
      | succ pausesToo =>
          have within := Machine.size_le_of_drain drained
          unfold Machine.drain
          by_cases out : asked ≤ machine.output.size
          · rw [if_pos out]
            exact ⟨_, rfl, .inr ⟨out, within⟩⟩
          have left := enough (Nat.lt_of_not_le out)
          have someToo : 0 < pausesToo := by
            unfold Machine.pausesLeft at left
            omega
          unfold Machine.drain at drained
          rw [if_neg (by omega)] at drained
          rw [if_neg out]
          simp only at drained ⊢
          generalize (if used = true then portions.head? else none) = due at drained ⊢
          generalize remains : (if used = true then portions.tail else portions) = further at drained ⊢
          generalize began : ({ machine with bits := _ } : Machine) = start at drained ⊢
          have sameOutput : start.output = machine.output := by
            rw [← began]
          cases resumed : start.resume with
          | mk cause stopped =>
              have grows := (Machine.resume_stands resumed).1
              rw [resumed] at drained
              rw [sameOutput] at grows
              cases cause with
              | finished =>
                  exact ⟨output, drained, .inl rfl⟩
              | full =>
                  have window := Machine.window_lt_of_resume_full resumed
                  rw [sameOutput] at window
                  refine ih drained someToo fun notOut => ?_
                  have reached : stopped.output.size / windowSize ≤ asked / windowSize :=
                    Nat.div_le_div_right (Nat.le_of_lt notOut)
                  rw [← remains]
                  exact Nat.lt_of_lt_of_le (Machine.pausesLeft_lt_of_full window reached)
                    (Nat.le_of_lt_succ left)
              | fault cause =>
                  cases cause with
                  | truncated =>
                      dsimp only at drained ⊢
                      split at drained
                      · cases drained
                      · rename_i fed
                        rw [if_neg fed]
                        refine ih drained someToo fun _ => ?_
                        rw [← remains] at drained ⊢
                        have another := Machine.portions_ne_nil_of_drain resumed drained ended
                        exact Nat.lt_of_lt_of_le (Machine.pausesLeft_lt_of_portion another grows)
                          (Nat.le_of_lt_succ left)
                  | corrupt =>
                      cases drained

/-! ### What a stream holds -/

/-- A stream inflates to these octets if it comes to its end with them, whatever more is asked for. -/
def Inflates (stream octets : Octets) : Prop :=
  ∃ asked, octets.length < asked ∧ inflate asked stream = some octets.toArray

theorem Inflates.exists_inflate {stream octets : Octets} (inflates : Inflates stream octets) (asked : Nat) :
    ∃ front, inflate asked stream = some front ∧
      (front = octets.toArray ∨ asked ≤ front.size ∧ front.size ≤ octets.length) := by
  obtain ⟨other, more, drained⟩ := inflates
  unfold inflate at drained
  have counted : Machine.start.pausesLeft asked true (portions stream) <
      (portions stream).length + asked / windowSize + 3 := by
    simp [Machine.pausesLeft, Machine.start]
  exact Machine.exists_drain_of_ended drained (by simpa using more) (Nat.succ_pos _) fun _ => counted

theorem Inflates.inflate_eq {stream octets : Octets} (inflates : Inflates stream octets) {asked : Nat}
    (more : octets.length < asked) : inflate asked stream = some octets.toArray := by
  obtain ⟨front, inflated, whole | ⟨enough, within⟩⟩ := inflates.exists_inflate asked
  · rw [inflated, whole]
  · omega

theorem Inflates.unique {stream octets octetsToo : Octets} (inflates : Inflates stream octets)
    (inflatesToo : Inflates stream octetsToo) : octets = octetsToo := by
  have one := inflates.inflate_eq (Nat.lt_succ_of_le (Nat.le_add_right octets.length octetsToo.length))
  have other := inflatesToo.inflate_eq (Nat.lt_succ_of_le (Nat.le_add_left octetsToo.length octets.length))
  rw [one] at other
  simpa using other

/-- Without an octet there is not even the head of a block. -/
theorem not_inflates_nil {octets : Octets} : ¬ Inflates [] octets := by
  rintro ⟨asked, more, drained⟩
  have stands : Machine.start.resume = (.fault .truncated, .start) := rfl
  have some : 0 < asked := by
    omega
  rw [inflate, portions, List.length_nil, portionsWithin, Machine.drain_truncated some stands] at drained
  cases drained

end SamlGate.Deflate
