import Mathlib.Data.Finset.Image
import Mathlib.Data.List.Nodup
import Mathlib.Data.List.Sort
import Billiard.Data.Gaps

/-! `close_open_fds`, where the open descriptors can be listed and where they cannot. -/

namespace Billiard

/-- `FILENO_ERRORS` -/
inductive FilenoError where
  | attributeError
  | valueError
  | unsupportedOperation
deriving DecidableEq, Repr

inductive Keepable where
  | integral (value : Int)
  | file (fileno : Except FilenoError Int)
  | none

def Keepable.fileno : Keepable → Except FilenoError Int
  | .integral value => .ok value
  | .file fileno => fileno
  | .none => .error .attributeError

def maybeFileno (f : Keepable) : Option Int := f.fileno.toOption

/-- What the system says of the number of descriptors: nothing when `sysconf` fails, when there
is no `resource` module, or when the limit is `RLIM_INFINITY`. -/
structure FdLimits where
  openMax : Option Int
  hardLimit : Option (Option Int)

def getFdmax (limits : FdLimits) (default : Int) : Int :=
  match limits.openMax, limits.hardLimit with
  | some openMax, _ => openMax
  | none, none => default
  | none, some none => default
  | none, some (some fdmax) => fdmax

def uniq {α : Type} [DecidableEq α] : (seen it : List α) → List α
  | _, [] => []
  | seen, obj :: it => if obj ∈ seen then uniq seen it else obj :: uniq (obj :: seen) it

/-- The descriptors that `keep or []` names, as they come. -/
def namedFds (keep : Option (List Keepable)) : List Int :=
  (keep.getD []).filterMap maybeFileno

def keptFds (keep : Option (List Keepable)) : List Int :=
  uniq [] ((namedFds keep).insertionSort (· ≤ ·))

def isdigit (name : String) : Bool := name ≠ "" && name.toList.all Char.isDigit

/-- `int(name)`, for a name of digits. -/
def fdOf (name : String) : Nat := Nat.ofDigitChars 10 name.toList 0

/-- `_open_fds` on the names in the directory, if it could be listed. -/
def openFds (names : Option (List String)) : Option (List Nat) :=
  names.map fun names =>
    ((names.filter isdigit).map fdOf).insertionSort (· ≤ ·)

/-- The descriptors left open, and whether an `OverflowError` has left the function. -/
structure Closing where
  opened : Finset Nat
  overflow : Bool
deriving DecidableEq

def fitsInt (value : Int) : Bool := -2 ^ 31 ≤ value && value < 2 ^ 31

/-- `os.closerange`, whose arguments become numbers of the C type `int`.  Where the system has
`close_range`, the end of the range goes to it as an unsigned number, and is beyond every
descriptor when it is negative. -/
def closerange? (closeRange : Bool) (opened : Finset Nat) (low high : Int) : Option (Finset Nat) :=
  if fitsInt low && fitsInt high then
    if closeRange && high ≤ 0 then some (opened.filter fun fd : Nat => ¬ low ≤ fd)
    else some (opened.filter fun fd : Nat => ¬ (low ≤ fd ∧ fd < high))
  else none

/-- `zip_longest(kL, kH)`, of two lists of one length. -/
def gaps (keep : List Int) (maxfd : Int) : List (Int × Int) :=
  (-1 :: keep).zip (keep ++ [maxfd])

def closeGaps (closeRange : Bool) (opened : Finset Nat) : List (Int × Int) → Closing
  | [] => ⟨opened, false⟩
  | (low, high) :: gaps =>
      if low + 1 = high then closeGaps closeRange opened gaps
      else
        match closerange? closeRange opened (low + 1) high with
        | none => ⟨opened, true⟩
        | some left => closeGaps closeRange left gaps

/-- The body of the `for` over the listed descriptors; no `OSError` is told apart. -/
def closeListed (keep : List Int) (opened : Finset Nat) (fd : Nat) : Finset Nat :=
  if (fd : Int) ∈ keep then opened else opened.erase fd

def closeOpenFds (closeRange : Bool) (names : Option (List String)) (limits : FdLimits)
    (keep : Option (List Keepable)) (opened : Finset Nat) : Closing :=
  match openFds names with
  | some fds => ⟨fds.foldl (closeListed (keptFds keep)) opened, false⟩
  | none => closeGaps closeRange opened (gaps (keptFds keep) (getFdmax limits 2048))

/-- Every open descriptor has its name in the directory. -/
def Lists (names : List String) (opened : Finset Nat) : Prop :=
  ∀ fd ∈ opened, Nat.repr fd ∈ names

instance Lists.decidable (names : List String) (opened : Finset Nat) :
    Decidable (Lists names opened) :=
  inferInstanceAs (Decidable (∀ fd ∈ opened, Nat.repr fd ∈ names))

/-- No error, and exactly the open descriptors that `keep` names are left. -/
def onlyKept (keep : Option (List Keepable)) (opened : Finset Nat) : Closing :=
  ⟨opened.filter fun fd => (fd : Int) ∈ namedFds keep, false⟩

/-- Nothing named is below the range of `int`; of the numbers that a range cannot end or begin
with, those below `get_fdmax()` are named, which are none where it is a number of that range. -/
structure KeepFits (limits : FdLimits) (keep : Option (List Keepable)) : Prop where
  fdmax : -2 ^ 31 ≤ getFdmax limits 2048
  least : ∀ value ∈ namedFds keep, -2 ^ 31 ≤ value
  large : ∀ value, 2 ^ 31 ≤ value + 1 →
    (value ∈ namedFds keep ↔ value < getFdmax limits 2048)

/-- Where a negative end is beyond every descriptor, no negative number is named, or nothing is
to be left open. -/
def NoNegativeEnd (closeRange : Bool) (keep : Option (List Keepable)) (opened : Finset Nat) :
    Prop :=
  closeRange = true → (∀ value ∈ namedFds keep, 0 ≤ value) ∨
    ∀ fd ∈ opened, (fd : Int) ∉ namedFds keep

instance NoNegativeEnd.decidable (closeRange : Bool) (keep : Option (List Keepable))
    (opened : Finset Nat) : Decidable (NoNegativeEnd closeRange keep opened) :=
  inferInstanceAs (Decidable (closeRange = true → (∀ value ∈ namedFds keep, 0 ≤ value) ∨
    ∀ fd ∈ opened, (fd : Int) ∉ namedFds keep))

section Uniq

variable {α : Type} [DecidableEq α]

theorem mem_uniq {seen it : List α} {obj : α} :
    obj ∈ uniq seen it ↔ obj ∈ it ∧ obj ∉ seen := by
  induction it generalizing seen with
  | nil => simp [uniq]
  | cons first it ih =>
      rw [uniq]
      by_cases same : obj = first
      · subst same
        by_cases known : obj ∈ seen
        · simp [known, ih]
        · simp [known]
      · by_cases known : first ∈ seen
        · simp [known, ih, same]
        · simp [known, ih, same]

theorem uniq_sublist (seen it : List α) : (uniq seen it).Sublist it := by
  induction it generalizing seen with
  | nil => exact .slnil
  | cons first it ih =>
      rw [uniq]
      by_cases known : first ∈ seen
      · rw [if_pos known]
        exact (ih seen).cons first
      · rw [if_neg known]
        exact (ih (first :: seen)).cons_cons first

theorem uniq_nodup (seen it : List α) : (uniq seen it).Nodup := by
  induction it generalizing seen with
  | nil => exact .nil
  | cons first it ih =>
      rw [uniq]
      by_cases known : first ∈ seen
      · rw [if_pos known]
        exact ih seen
      · rw [if_neg known, List.nodup_cons]
        exact ⟨fun again => (mem_uniq.mp again).2 List.mem_cons_self, ih _⟩

end Uniq

section

variable {closeRange : Bool} {limits : FdLimits} {keep : Option (List Keepable)}
  {opened : Finset Nat}

theorem mem_keptFds {value : Int} : value ∈ keptFds keep ↔ value ∈ namedFds keep := by
  rw [keptFds, mem_uniq, List.mem_insertionSort]
  exact and_iff_left List.not_mem_nil

theorem keptFds_ascending (keep : Option (List Keepable)) :
    (keptFds keep).Pairwise (· < ·) := by
  have sorted := (List.pairwise_insertionSort (· ≤ ·) (namedFds keep)).sublist
    (uniq_sublist [] _)
  have apart := uniq_nodup [] ((namedFds keep).insertionSort (· ≤ ·))
  exact sorted.imp₂ (fun _ _ least apart => lt_of_le_of_ne least apart) apart

theorem foldl_closeListed (kept : List Int) (fds : List Nat) :
    fds.foldl (closeListed kept) opened =
      opened.filter fun fd => fd ∈ fds → (fd : Int) ∈ kept := by
  induction fds generalizing opened with
  | nil => simp
  | cons fd fds ih =>
      rw [List.foldl_cons, ih]
      ext other
      unfold closeListed
      by_cases known : (fd : Int) ∈ kept
      · by_cases same : other = fd
        · simp [known, same]
        · simp [known, same]
      · by_cases same : other = fd
        · simp [known, same]
        · simp [known, same]

theorem isdigit_repr (fd : Nat) : isdigit (Nat.repr fd) = true := by
  have digits : (Nat.repr fd).toList.all Char.isDigit = true := by
    rw [List.all_eq_true, Nat.toList_repr]
    exact fun c listed => Nat.isDigit_of_mem_toDigits (by decide) (by decide) listed
  have filled : Nat.repr fd ≠ "" := by simp
  rw [isdigit, digits, Bool.and_true]
  exact decide_eq_true filled

theorem fdOf_repr (fd : Nat) : fdOf (Nat.repr fd) = fd := by
  rw [fdOf, Nat.toList_repr, Nat.ofDigitChars_ten_toDigits]

theorem closeOpenFds_listed {names : List String} (lists : Lists names opened) :
    closeOpenFds closeRange (some names) limits keep opened = onlyKept keep opened := by
  have listed (fd : Nat) (isOpen : fd ∈ opened) :
      fd ∈ ((names.filter isdigit).map fdOf).insertionSort (· ≤ ·) := by
    rw [List.mem_insertionSort, List.mem_map]
    exact ⟨Nat.repr fd, List.mem_filter.mpr ⟨lists fd isOpen, isdigit_repr fd⟩, fdOf_repr fd⟩
  simp only [closeOpenFds, openFds, Option.map_some, foldl_closeListed, onlyKept, mem_keptFds]
  congr 1
  refine Finset.filter_congr fun fd isOpen => ?_
  exact forall_prop_of_true (listed fd isOpen)

/-- The ends of every range that is closed are numbers of the type `int`. -/
def GapsFit (gaps : List (Int × Int)) : Prop := Gaps.Within (-2 ^ 31) (2 ^ 31) gaps

theorem closerange?_of_fits {low high : Int} (begins : -2 ^ 31 ≤ low ∧ low < 2 ^ 31)
    (ends : -2 ^ 31 ≤ high ∧ high < 2 ^ 31) :
    closerange? false opened low high =
      some (opened.filter fun fd : Nat => ¬ (low ≤ fd ∧ fd < high)) := by
  have lowFits : fitsInt low = true := by simpa [fitsInt] using begins
  have highFits : fitsInt high = true := by simpa [fitsInt] using ends
  rw [closerange?, lowFits, highFits]
  simp

theorem closeGaps_of_fit {gaps : List (Int × Int)} (fit : GapsFit gaps) :
    closeGaps false opened gaps =
      ⟨opened.filter fun fd => ∀ gap ∈ gaps, ¬ Gaps.Inside gap fd, false⟩ := by
  induction gaps generalizing opened with
  | nil => simp [closeGaps]
  | cons gap gaps ih =>
      obtain ⟨low, high⟩ := gap
      obtain ⟨first, rest⟩ := List.forall_mem_cons.mp fit
      rw [closeGaps]
      by_cases empty : low + 1 = high
      · rw [if_pos empty, ih rest]
        congr 1
        refine Finset.filter_congr fun fd _ => ?_
        rw [List.forall_mem_cons]
        refine (and_iff_right fun inside => ?_).symm
        have after : low < fd := inside.1
        have before : (fd : Int) < high := inside.2
        omega
      · obtain ⟨begins, ends⟩ := first empty
        rw [if_neg empty, closerange?_of_fits begins ends]
        simp only
        rw [ih rest, Finset.filter_filter]
        congr 1
        refine Finset.filter_congr fun fd _ => ?_
        rw [List.forall_mem_cons]
        rfl

theorem gapsFit_of_closeGaps {gaps : List (Int × Int)}
    (returned : (closeGaps closeRange opened gaps).overflow = false) : GapsFit gaps := by
  induction gaps generalizing opened with
  | nil => exact fun gap listed => absurd listed List.not_mem_nil
  | cons gap gaps ih =>
      obtain ⟨low, high⟩ := gap
      rw [closeGaps] at returned
      refine List.forall_mem_cons.mpr ?_
      by_cases empty : low + 1 = high
      · rw [if_pos empty] at returned
        exact ⟨fun apart => absurd empty apart, ih returned⟩
      · rw [if_neg empty, closerange?] at returned
        by_cases fits : (fitsInt (low + 1) && fitsInt high) = true
        · rw [if_pos fits, ← apply_ite some] at returned
          have ends : (-2 ^ 31 ≤ low + 1 ∧ low + 1 < 2 ^ 31) ∧ -2 ^ 31 ≤ high ∧ high < 2 ^ 31 := by
            simpa [fitsInt] using fits
          exact ⟨fun _ => ends, ih returned⟩
        · rw [if_neg fits] at returned
          cases returned

theorem gapsFit_iff (limits : FdLimits) (keep : Option (List Keepable)) :
    GapsFit (gaps (keptFds keep) (getFdmax limits 2048)) ↔ KeepFits limits keep := by
  rw [gaps, Gaps.zip_eq_between, GapsFit,
    Gaps.within_iff (keptFds_ascending keep) (by decide) (by decide)]
  simp only [mem_keptFds]
  exact ⟨fun ⟨fdmax, least, large⟩ => ⟨fdmax, least, large⟩,
    fun fits => ⟨fits.fdmax, fits.least, fits.large⟩⟩

theorem closeGaps_unlisted (fit : GapsFit (gaps (keptFds keep) (getFdmax limits 2048)))
    (below : ∀ fd ∈ opened, (fd : Int) < getFdmax limits 2048) :
    closeGaps false opened (gaps (keptFds keep) (getFdmax limits 2048)) = onlyKept keep opened := by
  refine (closeGaps_of_fit fit).trans ?_
  rw [onlyKept, gaps, Gaps.zip_eq_between]
  congr 1
  refine Finset.filter_congr fun fd isOpen => ?_
  rw [Gaps.not_inside_iff (keptFds_ascending keep) (by omega) (below fd isOpen), mem_keptFds]

/-- The system makes a difference only to a range that ends at zero or below. -/
theorem closeGaps_eq {gaps : List (Int × Int)}
    (ends : ∀ gap ∈ gaps, gap.1 + 1 = gap.2 ∨ 0 < gap.2) :
    closeGaps closeRange opened gaps = closeGaps false opened gaps := by
  induction gaps generalizing opened with
  | nil => rfl
  | cons gap gaps ih =>
      obtain ⟨low, high⟩ := gap
      obtain ⟨own, rest⟩ := List.forall_mem_cons.mp ends
      have same : low + 1 ≠ high →
          closerange? closeRange opened (low + 1) high =
            closerange? false opened (low + 1) high := by
        intro apart
        have after : 0 < high := own.resolve_left apart
        have above : ¬ high ≤ 0 := by omega
        simp [closerange?, above]
      rw [closeGaps, closeGaps]
      by_cases empty : low + 1 = high
      · rw [if_pos empty, if_pos empty]
        exact ih rest
      · rw [if_neg empty, if_neg empty, same empty]
        cases closerange? false opened (low + 1) high with
        | none => rfl
        | some left => exact ih rest

theorem closeGaps_empty {gaps : List (Int × Int)} (fit : GapsFit gaps) :
    closeGaps closeRange ∅ gaps = ⟨∅, false⟩ := by
  induction gaps with
  | nil => rfl
  | cons gap gaps ih =>
      obtain ⟨low, high⟩ := gap
      obtain ⟨first, rest⟩ := List.forall_mem_cons.mp fit
      rw [closeGaps]
      by_cases empty : low + 1 = high
      · rw [if_pos empty]
        exact ih rest
      · obtain ⟨begins, ends⟩ := first empty
        have lowFits : fitsInt (low + 1) = true := by simpa [fitsInt] using begins
        have highFits : fitsInt high = true := by simpa [fitsInt] using ends
        have nothing : closerange? closeRange ∅ (low + 1) high = some ∅ := by
          simp [closerange?, lowFits, highFits]
        rw [if_neg empty, nothing]
        exact ih rest

/-- Without negative numbers, a range ends at zero only where nothing is open. -/
theorem ends_of_named (named : ∀ value ∈ namedFds keep, 0 ≤ value)
    (positive : 0 < getFdmax limits 2048) :
    ∀ gap ∈ gaps (keptFds keep) (getFdmax limits 2048), gap.1 + 1 = gap.2 ∨ 0 < gap.2 := by
  intro gap listed
  rw [gaps, Gaps.zip_eq_between] at listed
  have above : ∀ kept ∈ keptFds keep, -1 < kept := fun kept member => by
    have least := named kept (mem_keptFds.mp member)
    omega
  obtain ⟨after, last | apart⟩ := Gaps.mem_between (keptFds_ascending keep) above listed
  · exact .inr (by omega)
  · omega

/-- A negative number is the end of the first range, which is then everything. -/
theorem closeGaps_negative (fit : GapsFit (gaps (keptFds keep) (getFdmax limits 2048)))
    (negative : ∃ value ∈ namedFds keep, value < 0) :
    closeGaps true opened (gaps (keptFds keep) (getFdmax limits 2048)) = ⟨∅, false⟩ := by
  obtain ⟨value, named, below⟩ := negative
  have ascending := keptFds_ascending keep
  have listed := mem_keptFds.mpr named
  cases kept : keptFds keep with
  | nil =>
      rw [kept] at listed
      exact absurd listed List.not_mem_nil
  | cons first rest =>
      rw [kept] at listed ascending fit
      have least : first < 0 := by
        rcases List.mem_cons.mp listed with rfl | later
        · exact below
        · exact ((List.pairwise_cons.mp ascending).1 value later).trans below
      rw [gaps, Gaps.zip_eq_between] at fit ⊢
      obtain ⟨own, others⟩ := List.forall_mem_cons.mp fit
      have apart : (-1 : Int) + 1 ≠ first := by omega
      obtain ⟨begins, ends⟩ := own apart
      have highFits : fitsInt first = true := by simpa [fitsInt] using ends
      have everything : closerange? true opened (-1 + 1) first = some ∅ := by
        have lowFits : fitsInt 0 = true := by decide
        simp [closerange?, lowFits, highFits, least.le]
      rw [Gaps.between, closeGaps, if_neg apart, everything]
      exact closeGaps_empty others

theorem closeOpenFds_unlisted (below : ∀ fd ∈ opened, (fd : Int) < getFdmax limits 2048) :
    closeOpenFds closeRange none limits keep opened = onlyKept keep opened ↔
      KeepFits limits keep ∧ NoNegativeEnd closeRange keep opened := by
  rw [← gapsFit_iff]
  have fits : closeOpenFds closeRange none limits keep opened = onlyKept keep opened →
      GapsFit (gaps (keptFds keep) (getFdmax limits 2048)) := by
    intro same
    have returned : (closeGaps closeRange opened
        (gaps (keptFds keep) (getFdmax limits 2048))).overflow = false :=
      congrArg Closing.overflow same
    exact gapsFit_of_closeGaps returned
  refine ⟨fun same => ⟨fits same, ?_⟩, ?_⟩
  · rintro rfl
    refine or_iff_not_imp_left.mpr fun negative => ?_
    have closed : closeGaps true opened (gaps (keptFds keep) (getFdmax limits 2048)) =
        ⟨∅, false⟩ := closeGaps_negative (fits same) (by simpa using negative)
    have nothing := congrArg Closing.opened (same.symm.trans closed)
    exact Finset.filter_eq_empty_iff.mp nothing
  · rintro ⟨fit, ends⟩
    cases closeRange with
    | false => exact closeGaps_unlisted fit below
    | true =>
        by_cases negative : ∃ value ∈ namedFds keep, value < 0
        · have unkept : ∀ fd ∈ opened, (fd : Int) ∉ namedFds keep :=
            (ends rfl).resolve_left (by simpa using negative)
          refine (closeGaps_negative fit negative).trans ?_
          rw [onlyKept, Finset.filter_eq_empty_iff.mpr unkept]
        · have named : ∀ value ∈ namedFds keep, 0 ≤ value := by simpa using negative
          by_cases positive : 0 < getFdmax limits 2048
          · exact (closeGaps_eq (ends_of_named named positive)).trans
              (closeGaps_unlisted fit below)
          · have nothing : opened = ∅ := Finset.eq_empty_of_forall_notMem fun fd isOpen => by
              have under := below fd isOpen
              omega
            subst nothing
            exact closeGaps_empty fit

/-- Both ways to close leave the open descriptors that `keep` names exactly if no range has an
end that a C `int` cannot tell, or one that the system takes to be beyond all of them. -/
theorem closeOpenFds_iff {names : List String} (lists : Lists names opened)
    (below : ∀ fd ∈ opened, (fd : Int) < getFdmax limits 2048) :
    (closeOpenFds closeRange (some names) limits keep opened = onlyKept keep opened ∧
      closeOpenFds closeRange none limits keep opened = onlyKept keep opened) ↔
        KeepFits limits keep ∧ NoNegativeEnd closeRange keep opened := by
  rw [closeOpenFds_unlisted below]
  exact and_iff_right (closeOpenFds_listed lists)

def mixedKeep (least : Int) : Option (List Keepable) :=
  some [.integral 7, .none, .integral least, .file (.ok 1), .integral 7]

/-- A negative number that is kept does no harm without `close_range`. -/
theorem closeOpenFds_iff_mixedKeep :
    KeepFits ⟨some 1024, none⟩ (mixedKeep (-3)) ∧
      ¬NoNegativeEnd true (mixedKeep (-3)) {0, 1, 2, 7} ∧
      onlyKept (mixedKeep 0) {0, 1, 2, 7} = ⟨{0, 1, 7}, false⟩ ∧
      NoNegativeEnd true (mixedKeep 0) {0, 1, 2, 7} := by
  have lists : Lists ["0", "1", "2", "7"] {0, 1, 2, 7} := by decide
  have below : ∀ fd ∈ ({0, 1, 2, 7} : Finset Nat),
      (fd : Int) < getFdmax ⟨some 1024, none⟩ 2048 := by decide
  have without : KeepFits ⟨some 1024, none⟩ (mixedKeep (-3)) ∧
      NoNegativeEnd false (mixedKeep (-3)) {0, 1, 2, 7} :=
    (closeOpenFds_iff lists below).mp (by decide)
  have withoutNegative : KeepFits ⟨some 1024, none⟩ (mixedKeep 0) ∧
      NoNegativeEnd true (mixedKeep 0) {0, 1, 2, 7} :=
    (closeOpenFds_iff lists below).mp (by decide)
  exact ⟨without.1, by decide, by decide, withoutNegative.2⟩

/-- The last number is no `int`, so that the range before it is not closed. -/
theorem not_closeOpenFds_onlyKept : ¬ ∀ (closeRange : Bool) (names : List String)
    (limits : FdLimits) (keep : Option (List Keepable)) (opened : Finset Nat), Lists names opened →
    (∀ fd ∈ opened, (fd : Int) < getFdmax limits 2048) →
    closeOpenFds closeRange (some names) limits keep opened = onlyKept keep opened ∧
      closeOpenFds closeRange none limits keep opened = onlyKept keep opened := by
  intro claimed
  have both := claimed false ["0", "1", "2", "7"] ⟨some 1024, none⟩
    (some [.integral 1, .integral (2 ^ 31)]) {0, 1, 2, 7} (by decide) (by decide)
  exact absurd both.2 (by decide)

end

end Billiard
