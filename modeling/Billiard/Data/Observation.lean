/-! What a caller can tell of two states of a machine that answers calls. -/

namespace Observation

variable {State : Type u} {Call : Type v} {Reply : Type w}

def replies (answer : State → Call → Reply × State) : State → List Call → List Reply
  | _, [] => []
  | state, call :: calls => (answer state call).1 :: replies answer (answer state call).2 calls

/-- No sequence of calls is answered differently. -/
def Same (answer : State → Call → Reply × State) (left right : State) : Prop :=
  ∀ calls, replies answer left calls = replies answer right calls

variable {answer : State → Call → Reply × State} {left right : State}

theorem Same.refl (state : State) : Same answer state state :=
  fun _ => rfl

theorem Same.symm (same : Same answer left right) : Same answer right left :=
  fun calls => (same calls).symm

theorem Same.trans {middle : State} (front : Same answer left middle)
    (back : Same answer middle right) : Same answer left right :=
  fun calls => (front calls).trans (back calls)

theorem Same.reply (same : Same answer left right) (call : Call) :
    (answer left call).1 = (answer right call).1 :=
  (List.cons.inj (same [call])).1

theorem Same.next (same : Same answer left right) (call : Call) :
    Same answer (answer left call).2 (answer right call).2 :=
  fun calls => (List.cons.inj (same (call :: calls))).2

theorem same_of_simulation (related : State → State → Prop)
    (agree : ∀ left right call, related left right →
      (answer left call).1 = (answer right call).1 ∧
        related (answer left call).2 (answer right call).2)
    (start : related left right) : Same answer left right := by
  intro calls
  induction calls generalizing left right with
  | nil => rfl
  | cons call calls ih =>
      obtain ⟨reply, next⟩ := agree left right call start
      simp only [replies]
      rw [reply, ih next]

end Observation
