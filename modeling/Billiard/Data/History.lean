/-! Logs that are only added to, with a law for each event by what came before it. -/

namespace History

variable {Event : Type u} {lawful : List Event → Event → Prop} {log events : List Event}
  {event : Event}

def Sound (lawful : List Event → Event → Prop) (log : List Event) : Prop :=
  ∀ before event after, log = before ++ event :: after → lawful before event

theorem sound_nil : Sound lawful [] := by
  intro before event after split
  simp at split

theorem sound_concat : Sound lawful (log ++ [event]) ↔ Sound lawful log ∧ lawful log event := by
  constructor
  · intro sound
    refine ⟨?_, sound log event [] rfl⟩
    rintro before other after rfl
    exact sound before other (after ++ [event]) (by simp)
  · intro ⟨sound, last⟩ before other after split
    rcases List.eq_nil_or_concat after with rfl | ⟨front, final, rfl⟩
    · obtain ⟨rfl, same⟩ := List.append_inj' split rfl
      cases same
      exact last
    · rw [List.concat_eq_append, ← List.cons_append, ← List.append_assoc] at split
      exact sound before other front (List.append_inj' split rfl).1

theorem sound_append (always : ∀ event ∈ events, ∀ before, lawful before event) :
    Sound lawful (log ++ events) ↔ Sound lawful log := by
  induction events generalizing log with
  | nil => rw [List.append_nil]
  | cons event events ih =>
      obtain ⟨first, rest⟩ := List.forall_mem_cons.mp always
      rw [List.append_cons, ih rest, sound_concat]
      exact and_iff_left (first log)

end History
