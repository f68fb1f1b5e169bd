/-! Things numbered in the order in which they are issued, each of which is always in
one place. -/

namespace Custody

def Kept (places : List Nat) (issued : Nat) : Prop := places.Perm (List.range issued)

variable {places moved : List Nat} {issued number : Nat}

theorem kept_nil : Kept [] 0 := List.Perm.nil

theorem Kept.move (kept : Kept places issued) (same : moved.Perm places) : Kept moved issued :=
  same.trans kept

theorem Kept.issue (kept : Kept places issued) : Kept (places ++ [issued]) (issued + 1) := by
  rw [Kept, List.range_succ]
  exact kept.append_right [issued]

theorem Kept.nodup (kept : Kept places issued) : places.Nodup :=
  kept.nodup_iff.mpr List.nodup_range

theorem Kept.count (kept : Kept places issued) (old : number < issued) :
    places.count number = 1 := by
  rw [kept.nodup.count, if_pos (kept.mem_iff.mpr (List.mem_range.mpr old))]

end Custody
