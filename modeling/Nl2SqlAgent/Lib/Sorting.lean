import Mathlib.Data.List.Sort

/-! Stable sorting by a total preorder, and sorting by comparisons that can fail: whatever the
algorithm compares, it fails if two elements of the list cannot be compared. -/
namespace Lib

/-- A total preorder, as a test. -/
structure Ranking (α : Type u) where
  le : α → α → Bool
  trans : ∀ a b c, le a b = true → le b c = true → le a c = true
  total : ∀ a b, (le a b || le b a) = true

namespace Ranking

variable {α : Type u} {r : Ranking α} {xs ys : List α} {a b : α}

/-- The order of the keys. -/
def ofKey {κ : Type v} [LE κ] [DecidableLE κ] [Std.IsLinearOrder κ] (key : α → κ) : Ranking α where
  le a b := decide (key a ≤ key b)
  trans a b c first second := by
    simp only [decide_eq_true_eq] at first second ⊢
    exact Std.le_trans first second
  total a b := by
    simp only [Bool.or_eq_true, decide_eq_true_eq]
    exact Std.le_total

/-- The order of the keys from the greatest. -/
def ofKeyDown {κ : Type v} [LE κ] [DecidableLE κ] [Std.IsLinearOrder κ] (key : α → κ) : Ranking α where
  le a b := decide (key b ≤ key a)
  trans a b c first second := by
    simp only [decide_eq_true_eq] at first second ⊢
    exact Std.le_trans second first
  total a b := by
    simp only [Bool.or_eq_true, decide_eq_true_eq]
    exact Std.le_total

def tied (r : Ranking α) (a b : α) : Bool := r.le a b && r.le b a

def sort (r : Ranking α) (xs : List α) : List α := xs.mergeSort r.le

abbrev Sorted (r : Ranking α) (xs : List α) : Prop := xs.Pairwise fun a b => r.le a b = true

theorem le_refl (r : Ranking α) (a : α) : r.le a a = true := by
  simpa using r.total a a

theorem tied_iff : r.tied a b = true ↔ r.le a b = true ∧ r.le b a = true := Bool.and_eq_true_iff

theorem tied_refl (r : Ranking α) (a : α) : r.tied a a = true := tied_iff.mpr ⟨r.le_refl a, r.le_refl a⟩

theorem tied_comm : r.tied a b = r.tied b a := Bool.and_comm _ _

section Lex

/-- Lists by their first elements that are not tied; else the shorter comes first. -/
def lexLe (r : Ranking α) : List α → List α → Bool
  | [], _ => true
  | _ :: _, [] => false
  | a :: as, b :: bs => if r.tied a b then r.lexLe as bs else r.le a b

theorem lexLe_cons {as bs : List α} : r.lexLe (a :: as) (b :: bs) = true ↔
    r.le a b = true ∧ (r.le b a = true → r.lexLe as bs = true) := by
  rw [lexLe]
  split
  next same => simp [tied_iff.mp same]
  next differ =>
    refine ⟨fun below => ⟨below, fun above => absurd (tied_iff.mpr ⟨below, above⟩) differ⟩, And.left⟩

theorem lexLe_trans {zs : List α} (first : r.lexLe xs ys = true) (second : r.lexLe ys zs = true) :
    r.lexLe xs zs = true := by
  induction xs generalizing ys zs with
  | nil => rfl
  | cons x xs ih =>
    cases ys with
    | nil => cases first
    | cons y ys =>
      cases zs with
      | nil => cases second
      | cons z zs =>
        obtain ⟨below, later⟩ := lexLe_cons.mp first
        obtain ⟨below', later'⟩ := lexLe_cons.mp second
        refine lexLe_cons.mpr ⟨r.trans x y z below below', fun above => ?_⟩
        exact ih (later (r.trans y z x below' above)) (later' (r.trans z x y above below))

theorem lexLe_total (xs ys : List α) : (r.lexLe xs ys || r.lexLe ys xs) = true := by
  induction xs generalizing ys with
  | nil => rfl
  | cons x xs ih =>
    cases ys with
    | nil => rfl
    | cons y ys =>
      rw [lexLe, lexLe, tied_comm (a := y)]
      split
      · exact ih ys
      · exact r.total x y

def lex (r : Ranking α) : Ranking (List α) where
  le := r.lexLe
  trans _ _ _ := lexLe_trans
  total := lexLe_total

theorem lex_tied_cons {as bs : List α} :
    r.lex.tied (a :: as) (b :: bs) = true ↔ r.tied a b = true ∧ r.lex.tied as bs = true := by
  simp only [tied_iff, lex, lexLe_cons]
  constructor
  · rintro ⟨⟨below, later⟩, above, later'⟩
    exact ⟨⟨below, above⟩, later above, later' below⟩
  · rintro ⟨⟨below, above⟩, later, later'⟩
    exact ⟨⟨below, fun _ => later⟩, above, fun _ => later'⟩

end Lex

theorem sort_perm (r : Ranking α) (xs : List α) : (r.sort xs).Perm xs := List.mergeSort_perm xs r.le

theorem sort_sorted (r : Ranking α) (xs : List α) : r.Sorted (r.sort xs) :=
  List.pairwise_mergeSort r.trans r.total xs

/-- A permutation that keeps what is in order keeps the elements of one rank in their order. -/
theorem filter_of_stable (perm : ys.Perm xs)
    (stable : ∀ part, r.Sorted part → part.Sublist xs → part.Sublist ys) (a : α) :
    ys.filter (r.tied a) = xs.filter (r.tied a) := by
  have level : r.Sorted (xs.filter (r.tied a)) := by
    apply List.pairwise_of_forall_mem_list
    intro b bMember c cMember
    have below := (tied_iff.mp (List.mem_filter.mp bMember).2).2
    have above := (tied_iff.mp (List.mem_filter.mp cMember).2).1
    exact r.trans b a c below above
  have kept := (stable _ level List.filter_sublist).filter (r.tied a)
  simp only [List.filter_filter, Bool.and_self] at kept
  exact (kept.eq_of_length (perm.filter _).length_eq.symm).symm

theorem filter_sort (r : Ranking α) (xs : List α) (a : α) :
    (r.sort xs).filter (r.tied a) = xs.filter (r.tied a) :=
  filter_of_stable (r.sort_perm xs) (fun _ => List.sublist_mergeSort r.trans r.total) a

/-- Of two elements the first is no greater; and where they are tied, it stood first before. -/
theorem sort_stable {R : α → α → Prop} (ordered : xs.Pairwise R) :
    (r.sort xs).Pairwise fun a b => r.le a b = true ∧ (r.le b a = true → R a b) := by
  rw [List.pairwise_iff_forall_sublist]
  intro a b sub
  have below : r.le a b = true := List.pairwise_iff_forall_sublist.mp (r.sort_sorted xs) sub
  refine ⟨below, fun above => ?_⟩
  have kept := sub.filter (r.tied a)
  rw [r.filter_sort, List.filter_cons_of_pos (r.tied_refl a),
    List.filter_cons_of_pos (tied_iff.mpr ⟨below, above⟩)] at kept
  exact List.pairwise_iff_forall_sublist.mp ordered (kept.trans List.filter_sublist)

/-- The first in the order, against the rest. -/
theorem take_sort {R : α → α → Prop} (ordered : xs.Pairwise R) (n : Nat) :
    ∀ a ∈ (r.sort xs).take n, ∀ b ∈ (r.sort xs).drop n,
      r.le a b = true ∧ (r.le b a = true → R a b) := by
  have pairs := sort_stable (r := r) ordered
  rw [← List.take_append_drop n (r.sort xs)] at pairs
  exact (List.pairwise_append.mp pairs).2.2

/-- A sorted list is known from its elements of each rank. -/
theorem eq_of_ties (first : r.Sorted xs) (second : r.Sorted ys)
    (same : ∀ a, xs.filter (r.tied a) = ys.filter (r.tied a)) : xs = ys := by
  induction xs generalizing ys with
  | nil =>
    cases ys with
    | nil => rfl
    | cons y rest =>
      have none := same y
      rw [List.filter_cons_of_pos (r.tied_refl y)] at none
      contradiction
  | cons x xs ih =>
    cases ys with
    | nil =>
      have none := same x
      rw [List.filter_cons_of_pos (r.tied_refl x)] at none
      contradiction
    | cons y ys =>
      obtain ⟨least, rest⟩ := List.pairwise_cons.mp first
      obtain ⟨least', rest'⟩ := List.pairwise_cons.mp second
      -- either head stands somewhere in the other list
      have below : r.le y x = true := by
        have member : x ∈ (y :: ys).filter (r.tied x) := same x ▸ by simp [tied_refl]
        rcases List.mem_cons.mp (List.mem_filter.mp member).1 with rfl | later
        · exact r.le_refl x
        · exact least' x later
      have above : r.le x y = true := by
        have member : y ∈ (x :: xs).filter (r.tied y) := same y ▸ by simp [tied_refl]
        rcases List.mem_cons.mp (List.mem_filter.mp member).1 with rfl | later
        · exact r.le_refl y
        · exact least y later
      have heads := same x
      rw [List.filter_cons_of_pos (r.tied_refl x),
        List.filter_cons_of_pos (tied_iff.mpr ⟨above, below⟩)] at heads
      obtain rfl := (List.cons.inj heads).1
      refine congrArg (x :: ·) (ih rest rest' fun a => ?_)
      have tails := same a
      rw [List.filter_cons, List.filter_cons] at tails
      split at tails
      · exact (List.cons.inj tails).2
      · exact tails

/-- Two lists sort to the same list exactly if they have the same elements of each rank, in
the same order. -/
theorem sort_eq_iff : r.sort xs = r.sort ys ↔ ∀ a, xs.filter (r.tied a) = ys.filter (r.tied a) := by
  constructor
  · intro same a
    rw [← r.filter_sort xs, same, r.filter_sort ys]
  · intro same
    apply eq_of_ties (r.sort_sorted xs) (r.sort_sorted ys)
    intro a
    rw [r.filter_sort, r.filter_sort, same a]

theorem tied_congr (same : r.tied a b = true) : r.tied a = r.tied b := by
  obtain ⟨below, above⟩ := tied_iff.mp same
  funext c
  rw [Bool.eq_iff_iff, tied_iff, tied_iff]
  exact ⟨fun ⟨first, second⟩ => ⟨r.trans b a c above first, r.trans c a b second below⟩,
    fun ⟨first, second⟩ => ⟨r.trans a b c below first, r.trans c b a second above⟩⟩

/-- Only the ranks that occur matter. -/
theorem sort_eq_iff_mem : r.sort xs = r.sort ys ↔
    ∀ a ∈ xs ++ ys, xs.filter (r.tied a) = ys.filter (r.tied a) := by
  rw [sort_eq_iff]
  refine ⟨fun same a _ => same a, fun same a => ?_⟩
  by_cases found : ∃ b ∈ xs ++ ys, r.tied a b = true
  · obtain ⟨b, member, tied⟩ := found
    rw [tied_congr tied, same b member]
  · have none (zs : List α) (inside : zs ⊆ xs ++ ys) : zs.filter (r.tied a) = [] :=
      List.filter_eq_nil_iff.mpr fun b member tied => found ⟨b, inside member, tied⟩
    rw [none xs (List.subset_append_left _ _), none ys (List.subset_append_right _ _)]

section OfKey

variable {κ : Type v} [LE κ] [DecidableLE κ] [Std.IsLinearOrder κ] {key : α → κ}

theorem ofKey_tied : (ofKey key).tied a b = true ↔ key a = key b := by
  simp only [tied_iff, ofKey, decide_eq_true_eq]
  exact ⟨fun both => Std.le_antisymm both.1 both.2, fun same => by simp [same, Std.le_refl]⟩

theorem ofKey_sort_eq_iff [DecidableEq κ] : (ofKey key).sort xs = (ofKey key).sort ys ↔
    ∀ k, xs.filter (fun x => key x = k) = ys.filter fun x => key x = k := by
  have ties (zs : List α) (a : α) :
      zs.filter ((ofKey key).tied a) = zs.filter fun x => key x = key a := by
    refine List.filter_congr fun x _ => Bool.eq_iff_iff.mpr ?_
    rw [ofKey_tied, decide_eq_true_eq, eq_comm]
  rw [sort_eq_iff]
  constructor
  · intro same k
    by_cases found : ∃ x, key x = k
    · obtain ⟨x, rfl⟩ := found
      rw [← ties xs, same, ties]
    · have none (zs : List α) : zs.filter (fun x => key x = k) = [] :=
        List.filter_eq_nil_iff.mpr fun x _ here => found ⟨x, of_decide_eq_true here⟩
      rw [none, none]
  · intro same a
    rw [ties, ties, same]

end OfKey

end Ranking

/-- A computation that may ask whether one element is less than another. -/
inductive Asking (α : Type u) (β : Type v) where
  | result (b : β)
  | ask (x y : α) (next : Bool → Asking α β)

namespace Asking

variable {α : Type u} {β : Type v} {p : Asking α β}

/-- What it comes to where the comparison can fail. -/
def run (lt : α → α → Option Bool) : Asking α β → Option β
  | result b => some b
  | ask x y next => (lt x y).bind fun answer => (next answer).run lt

/-- What it comes to by a ranking. -/
def ranked (r : Ranking α) : Asking α β → β
  | result b => b
  | ask x y next => (next (!r.le y x)).ranked r

/-- Only such elements are compared, and whatever the answers, such a result is given. -/
def Among (member : α → Prop) (post : β → Prop) : Asking α β → Prop
  | result b => post b
  | ask x y next => member x ∧ member y ∧ ∀ answer, (next answer).Among member post

protected def bind {γ : Type w} (f : β → Asking α γ) : Asking α β → Asking α γ
  | result b => f b
  | ask x y next => ask x y fun answer => (next answer).bind f

/-- The comparison answers as the ranking does, where it answers. -/
def Agrees (member : α → Prop) (lt : α → α → Option Bool) (r : Ranking α) : Prop :=
  ∀ x y, member x → member y → ∀ answer, lt x y = some answer → answer = !r.le y x

theorem ranked_of_run {lt : α → α → Option Bool} {r : Ranking α} {b : β} {member : α → Prop}
    {post : β → Prop} (agrees : Agrees member lt r) (among : p.Among member post)
    (ran : p.run lt = some b) : p.ranked r = b := by
  induction p with
  | result _ => exact Option.some.inj ran
  | ask x y next ih =>
    obtain ⟨answer, compared, later⟩ := Option.bind_eq_some_iff.mp ran
    rw [ranked, ← agrees x y among.1 among.2.1 answer compared]
    exact ih answer (among.2.2 answer) later

theorem run_isSome {lt : α → α → Option Bool} {member : α → Prop} {post : β → Prop}
    (among : p.Among member post)
    (answers : ∀ x y, member x → member y → (lt x y).isSome = true) : (p.run lt).isSome = true := by
  induction p with
  | result _ => rfl
  | ask x y next ih =>
    obtain ⟨answer, compared⟩ := Option.isSome_iff_exists.mp (answers x y among.1 among.2.1)
    rw [run, compared]
    exact ih answer (among.2.2 answer)

theorem ranked_bind {γ : Type w} (r : Ranking α) (f : β → Asking α γ) :
    (p.bind f).ranked r = (f (p.ranked r)).ranked r := by
  induction p with
  | result _ => rfl
  | ask x y next ih => exact ih _

theorem among_bind {γ : Type w} {member : α → Prop} {post : β → Prop} {post' : γ → Prop}
    {f : β → Asking α γ} (among : p.Among member post)
    (rest : ∀ b, post b → (f b).Among member post') : (p.bind f).Among member post' := by
  induction p with
  | result b => exact rest b among
  | ask x y next ih => exact ⟨among.1, among.2.1, fun answer => ih answer (among.2.2 answer)⟩

end Asking

/-- A stable sort that learns of its elements only by comparing them. -/
structure Sorter (α : Type u) where
  sort : List α → Asking α (List α)
  among : ∀ xs, (sort xs).Among (· ∈ xs) (· ⊆ xs)
  sorts : ∀ (r : Ranking α) xs, (sort xs).ranked r = r.sort xs

namespace Sorter

variable {α : Type u} (sorter : Sorter α) {lt : α → α → Option Bool} {r flipped : Ranking α}
  {xs out : List α}

/-- What it returns, where every comparison answers. -/
theorem eq_of_run (agrees : Asking.Agrees (· ∈ xs) lt r)
    (ran : (sorter.sort xs).run lt = some out) : r.sort xs = out := by
  rw [← sorter.sorts r xs, Asking.ranked_of_run agrees (sorter.among xs) ran]

/-- Two rankings which the comparison agrees with differ on what it cannot compare. -/
structure Splits (member : α → Prop) (lt : α → α → Option Bool) (r flipped : Ranking α) : Prop where
  agrees : Asking.Agrees member lt r
  agrees' : Asking.Agrees member lt flipped
  splits : ∀ x y, member x → member y → lt x y = none →
    (r.le y x = false ∧ flipped.le x y = false) ∨ (r.le x y = false ∧ flipped.le y x = false)

/-- The sort fails exactly if two elements of the list cannot be compared. -/
theorem run_isSome_iff (splits : Splits (· ∈ xs) lt r flipped) :
    ((sorter.sort xs).run lt).isSome = true ↔ ∀ x ∈ xs, ∀ y ∈ xs, (lt x y).isSome = true := by
  constructor
  · intro ran x xMember y yMember
    obtain ⟨out, ran⟩ := Option.isSome_iff_exists.mp ran
    -- what the sort returns is in order by both rankings
    have first : r.sort xs = out := sorter.eq_of_run splits.agrees ran
    have second : flipped.sort xs = out := sorter.eq_of_run splits.agrees' ran
    have both : out.Pairwise fun a b => r.le a b = true ∧ flipped.le a b = true :=
      List.pairwise_and_iff.mpr ⟨first ▸ r.sort_sorted xs, second ▸ flipped.sort_sorted xs⟩
    have ordered {a b : α} (aMember : a ∈ xs) (bMember : b ∈ xs) :
        (r.le a b = true ∧ flipped.le a b = true) ∨ (r.le b a = true ∧ flipped.le b a = true) := by
      have inside {c : α} (member : c ∈ xs) : c ∈ out := first ▸ (r.sort_perm xs).mem_iff.mpr member
      exact List.Pairwise.forall_of_forall_of_flip (R := fun a b =>
        (r.le a b = true ∧ flipped.le a b = true) ∨ (r.le b a = true ∧ flipped.le b a = true))
        (fun a _ => .inl ⟨r.le_refl a, flipped.le_refl a⟩) (both.imp .inl) (both.imp .inr)
        (inside aMember) (inside bMember)
    rw [Option.isSome_iff_ne_none]
    intro fails
    rcases splits.splits x y xMember yMember fails with ⟨less, more⟩ | ⟨less, more⟩ <;>
      rcases ordered xMember yMember with both | both <;> simp_all
  · intro answers
    exact Asking.run_isSome (sorter.among xs) fun x y xMember yMember => answers x xMember y yMember

/-- Insertion from the right. -/
def insert (x : α) : List α → Asking α (List α)
  | [] => .result [x]
  | y :: ys => .ask y x fun less =>
    if less then (insert x ys).bind fun zs => .result (y :: zs) else .result (x :: y :: ys)

def insertAll : List α → Asking α (List α)
  | [] => .result []
  | x :: xs => (insertAll xs).bind (insert x)

theorem insert_ranked (r : Ranking α) (x : α) (xs : List α) :
    (insert x xs).ranked r = xs.orderedInsert (fun a b => r.le a b = true) x := by
  induction xs with
  | nil => rfl
  | cons y ys ih =>
    rw [insert, Asking.ranked, List.orderedInsert_cons]
    cases r.le x y with
    | true => rfl
    | false => simp [Asking.ranked_bind, ih, Asking.ranked]

theorem insertAll_ranked (r : Ranking α) (xs : List α) :
    (insertAll xs).ranked r = xs.insertionSort fun a b => r.le a b = true := by
  induction xs with
  | nil => rfl
  | cons x xs ih => rw [insertAll, Asking.ranked_bind, ih, insert_ranked, List.insertionSort_cons]

theorem insert_among {member : α → Prop} {x : α} {xs : List α} (first : member x)
    (rest : ∀ y ∈ xs, member y) :
    (insert x xs).Among member fun out => ∀ z ∈ out, member z := by
  induction xs with
  | nil => simpa [insert, Asking.Among] using first
  | cons y ys ih =>
    obtain ⟨second, later⟩ := List.forall_mem_cons.mp rest
    refine ⟨second, first, fun less => ?_⟩
    cases less with
    | true => exact Asking.among_bind (ih later) fun zs all => List.forall_mem_cons.mpr ⟨second, all⟩
    | false => exact List.forall_mem_cons.mpr ⟨first, rest⟩

theorem insertAll_among {member : α → Prop} {xs : List α} (all : ∀ x ∈ xs, member x) :
    (insertAll xs).Among member fun out => ∀ z ∈ out, member z := by
  induction xs with
  | nil => simp [insertAll, Asking.Among]
  | cons x xs ih =>
    obtain ⟨first, rest⟩ := List.forall_mem_cons.mp all
    exact Asking.among_bind (ih rest) fun ys inside => insert_among first inside

/-- Insertion sort. -/
def insertion : Sorter α where
  sort := insertAll
  among xs := insertAll_among fun _ member => member
  sorts r xs := by
    have : IsTrans α fun a b => r.le a b = true := ⟨r.trans⟩
    have : Std.Total fun a b : α => r.le a b = true :=
      ⟨fun a b => by simpa only [Bool.or_eq_true] using r.total a b⟩
    rw [insertAll_ranked]
    apply Ranking.eq_of_ties (List.pairwise_insertionSort _ xs) (r.sort_sorted xs)
    intro a
    rw [r.filter_sort]
    exact Ranking.filter_of_stable (List.perm_insertionSort _ xs)
      (fun _ => List.sublist_insertionSort) a

end Sorter
end Lib
