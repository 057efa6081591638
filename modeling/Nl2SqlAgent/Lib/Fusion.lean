import Mathlib.Data.List.Induction
import Nl2SqlAgent.Lib.PyDict
import Nl2SqlAgent.Lib.Sorting

/-! Fusion of ranked lists: every element of every list adds a weight of its rank to the score
of its key, and the keys are sorted by their scores. The arithmetic of the scores is a
parameter; it need not be exact. -/
namespace Lib

/-- Where the accumulation of scores starts, how it adds, and what a rank is worth. -/
structure Weighing (F : Type) where
  zero : F
  add : F → F → F
  weight : ℕ → F

namespace Weighing

variable {F : Type} [LinearOrder F] (w : Weighing F)

def total (ranks : List ℕ) : F := ranks.foldl (fun score rank => w.add score (w.weight rank)) w.zero

/-- What the accumulation comes to from non-negative numbers. -/
inductive Reached : F → Prop where
  | zero : Reached w.zero
  | add : Reached x → w.zero ≤ y → Reached (w.add x y)

/-- Higher ranks are worth more, and no rank takes from a score. -/
structure Lawful : Prop where
  nonneg : ∀ n, w.zero ≤ w.weight n
  antitone : ∀ {m n}, m ≤ n → w.weight n ≤ w.weight m
  mono : ∀ {x x' y y'}, w.zero ≤ x → x ≤ x' → w.zero ≤ y → y ≤ y' → w.add x y ≤ w.add x' y'
  grows : ∀ {x y}, w.Reached x → w.zero ≤ y → x ≤ w.add x y

variable {w} in
theorem Lawful.reached_nonneg (lawful : w.Lawful) {x : F} (reached : w.Reached x) : w.zero ≤ x := by
  induction reached with
  | zero => exact le_rfl
  | add reached nonneg ih => exact ih.trans (lawful.grows reached nonneg)

end Weighing

namespace Fusion

variable {α κ F : Type} [DecidableEq κ]

/-- The score of each key and the element that is kept for it. -/
structure Pool (α κ F : Type) where
  scores : PyDict κ F
  items : PyDict κ α

def Pool.empty : Pool α κ F := ⟨[], []⟩

def Pool.insert (w : Weighing F) (key : α → κ) (pool : Pool α κ F) (entry : α × ℕ) : Pool α κ F where
  scores := pool.scores.set (key entry.1)
    (w.add ((pool.scores.lookup (key entry.1)).getD w.zero) (w.weight entry.2))
  items := if (pool.items.lookup (key entry.1)).isSome then pool.items
    else pool.items.set (key entry.1) entry.1

/-- The ranked elements, list after list. -/
def entries (lists : List (List α)) : List (α × ℕ) := lists.flatMap List.zipIdx

def pool (w : Weighing F) (key : α → κ) (entries : List (α × ℕ)) : Pool α κ F :=
  entries.foldl (Pool.insert w key) .empty

/-- The ranks at which a key stands, list after list. -/
def ranks (key : α → κ) (entries : List (α × ℕ)) (k : κ) : List ℕ :=
  (entries.filter fun entry => key entry.1 = k).map Prod.snd

/-- The order of the scores from the highest. -/
def descending [LinearOrder F] : Ranking (κ × F) := .ofKeyDown Prod.snd

/-- The elements that are kept, in the order of the scores; a score of a key without an element
would raise. -/
def merged [LinearOrder F] (pool : Pool α κ F) : Option (List α) :=
  pool.items.subscripts ((descending.sort pool.scores).map Prod.fst)

section

variable {w : Weighing F} {key : α → κ} {es : List (α × ℕ)} {k a b : κ}

theorem pool_snoc (entry : α × ℕ) :
    pool w key (es ++ [entry]) = (pool w key es).insert w key entry := by
  simp [pool]

theorem eraseDups_snoc (xs : List κ) (x : κ) :
    (xs ++ [x]).eraseDups = if x ∈ xs then xs.eraseDups else xs.eraseDups ++ [x] := by
  rw [List.eraseDups_append]
  by_cases known : x ∈ xs
  · simp [List.removeAll, known]
  · simp [List.removeAll, known, List.eraseDups_cons]

theorem scores_keys (es : List (α × ℕ)) :
    (pool w key es).scores.map Prod.fst = (es.map fun entry => key entry.1).eraseDups := by
  induction es using List.reverseRecOn with
  | nil => rfl
  | append_singleton es entry ih =>
    rw [pool_snoc, Pool.insert, PyDict.keys_set, ih, List.map_append, List.map_singleton,
      eraseDups_snoc]
    by_cases known : key entry.1 ∈ es.map fun entry => key entry.1
    · rw [if_pos known, if_pos (List.mem_eraseDups.mpr known)]
    · rw [if_neg known, if_neg (mt List.mem_eraseDups.mp known)]

theorem scores_lookup (es : List (α × ℕ)) (k : κ) : (pool w key es).scores.lookup k =
    if ranks key es k = [] then none else some (w.total (ranks key es k)) := by
  induction es using List.reverseRecOn with
  | nil => rfl
  | append_singleton es entry ih =>
    rw [pool_snoc, Pool.insert, PyDict.lookup_set]
    by_cases here : k = key entry.1
    · subst here
      have more : ranks key (es ++ [entry]) (key entry.1) = ranks key es (key entry.1) ++ [entry.2] := by
        simp [ranks]
      rw [if_pos rfl, more, if_neg (List.append_ne_nil_of_right_ne_nil _ (by simp)), ih]
      split
      next none => rw [none]; rfl
      next => simp [Weighing.total]
    · have same : ranks key (es ++ [entry]) k = ranks key es k := by
        simp [ranks, Ne.symm here]
      rw [if_neg here, same, ih]

theorem items_lookup (es : List (α × ℕ)) (k : κ) : (pool w key es).items.lookup k =
    (es.map Prod.fst).find? fun item => key item = k := by
  induction es using List.reverseRecOn with
  | nil => rfl
  | append_singleton es entry ih =>
    rw [pool_snoc, Pool.insert, List.map_append, List.find?_append, ← ih]
    by_cases here : k = key entry.1
    · subst here
      cases found : (pool w key es).items.lookup (key entry.1) with
      | none => simp
      | some item => simp [found]
    · rw [List.map_singleton, List.find?_cons_of_neg (by simpa using Ne.symm here), List.find?_nil,
        Option.or_none]
      split
      · rfl
      · rw [PyDict.lookup_set_other _ _ here]

/-- The first occurrences stand in the order of their positions. -/
theorem pairwise_eraseDups (xs : List κ) :
    xs.eraseDups.Pairwise fun a b => xs.idxOf a < xs.idxOf b := by
  induction xs using List.reverseRecOn with
  | nil => simp
  | append_singleton xs x ih =>
    have earlier : xs.eraseDups.Pairwise fun a b => (xs ++ [x]).idxOf a < (xs ++ [x]).idxOf b := by
      refine List.Pairwise.imp_of_mem (fun {a b} aMember bMember before => ?_) ih
      rwa [List.idxOf_append_of_mem (List.mem_eraseDups.mp aMember),
        List.idxOf_append_of_mem (List.mem_eraseDups.mp bMember)]
    rw [eraseDups_snoc]
    split
    next => exact earlier
    next new =>
      refine List.pairwise_append.mpr ⟨earlier, List.pairwise_singleton _ _, fun a member b isLast => ?_⟩
      have old := List.mem_eraseDups.mp member
      rw [List.mem_singleton.mp isLast, List.idxOf_append_of_mem old, List.idxOf_append_of_notMem new]
      exact (List.idxOf_lt_length_of_mem old).trans_le (Nat.le_add_right _ _)

theorem scores_pairwise (es : List (α × ℕ)) : (pool w key es).scores.Pairwise fun a b =>
    (es.map fun entry => key entry.1).idxOf a.1 < (es.map fun entry => key entry.1).idxOf b.1 := by
  have keys := pairwise_eraseDups (es.map fun entry => key entry.1)
  rw [← scores_keys es (w := w), List.pairwise_map] at keys
  exact keys

theorem scores_nodup (es : List (α × ℕ)) : ((pool w key es).scores.map Prod.fst).Nodup := by
  rw [scores_keys]
  refine (pairwise_eraseDups _).imp fun before same => ?_
  rw [same] at before
  exact lt_irrefl _ before

theorem mem_scores {score : κ × F} (member : score ∈ (pool w key es).scores) :
    score.2 = w.total (ranks key es score.1) := by
  have found := PyDict.lookup_of_mem (scores_nodup es) member
  rw [scores_lookup] at found
  split at found
  · contradiction
  · exact (Option.some.inj found).symm

variable [LinearOrder F]

/-- What becomes of the ranked elements: of each key the first element, by the scores from the
highest, and where these are equal by the first appearance. -/
structure Merged (w : Weighing F) (key : α → κ) (es : List (α × ℕ)) (out : List α) : Prop where
  once : (out.map key).Nodup
  all : ∀ k, k ∈ out.map key ↔ k ∈ es.map fun entry => key entry.1
  first : ∀ item ∈ out, (es.map Prod.fst).find? (fun other => key other = key item) = some item
  ordered : out.Pairwise fun a b =>
    w.total (ranks key es (key b)) ≤ w.total (ranks key es (key a)) ∧
      (w.total (ranks key es (key b)) = w.total (ranks key es (key a)) →
        (es.map fun entry => key entry.1).idxOf (key a) < (es.map fun entry => key entry.1).idxOf (key b))

theorem merged_spec (w : Weighing F) (key : α → κ) (es : List (α × ℕ)) :
    ∃ out, merged (pool w key es) = some out ∧ Merged w key es out := by
  let sorted := descending.sort (pool w key es).scores
  have perm : sorted.Perm (pool w key es).scores := descending.sort_perm _
  have keys : ∀ k, k ∈ sorted.map Prod.fst ↔ k ∈ es.map fun entry => key entry.1 := by
    intro k
    rw [(perm.map Prod.fst).mem_iff, scores_keys, List.mem_eraseDups]
  have known : ∀ k ∈ sorted.map Prod.fst, ((pool w key es).items.lookup k).isSome = true := by
    intro k member
    obtain ⟨entry, inside, rfl⟩ := List.mem_map.mp ((keys k).mp member)
    rw [items_lookup, List.find?_isSome]
    exact ⟨entry.1, List.mem_map_of_mem inside, by simp⟩
  obtain ⟨out, taken⟩ := Option.isSome_iff_exists.mp (mapM_isSome known)
  -- each element stands where the score of its key does
  have placed : List.Forall₂ (fun k item => (es.map Prod.fst).find? (fun other => key other = k) =
      some item ∧ key item = k) (sorted.map Prod.fst) out := by
    apply (PyDict.subscripts_eq_some_iff.mp taken).imp
    intro k item found
    rw [items_lookup] at found
    exact ⟨found, by simpa using List.find?_some found⟩
  have same : sorted.map Prod.fst = out.map key := by
    rw [← List.forall₂_eq_eq_eq, List.forall₂_map_right_iff]
    exact placed.imp fun _ _ both => both.2.symm
  refine ⟨out, taken, ?_, ?_, ?_, ?_⟩
  · rw [← same]
    exact (perm.map Prod.fst).nodup_iff.mpr (scores_nodup es)
  · rw [← same]
    exact keys
  · intro item member
    obtain ⟨k, -, found, rfl⟩ := forall₂_mem_right placed member
    exact found
  · rw [← List.pairwise_map (f := key) (R := fun a b => w.total (ranks key es b) ≤ w.total (ranks key es a) ∧
      (w.total (ranks key es b) = w.total (ranks key es a) →
        (es.map fun entry => key entry.1).idxOf a < (es.map fun entry => key entry.1).idxOf b)), ← same,
      List.pairwise_map]
    refine List.Pairwise.imp_of_mem (fun {a b} aMember bMember before => ?_)
      (Ranking.sort_stable (scores_pairwise es))
    rw [← mem_scores (perm.mem_iff.mp aMember), ← mem_scores (perm.mem_iff.mp bMember)]
    obtain ⟨below, tie⟩ := before
    exact ⟨of_decide_eq_true below, fun equal => tie (decide_eq_true equal.ge)⟩

/-- The ranks of a key in the lists that have it. -/
def standings (lists : List (List κ)) (k : κ) : List ℕ :=
  lists.filterMap fun keys => if k ∈ keys then some (keys.idxOf k) else none

/-- `a` stands in every list in which `b` does, and no lower. -/
def NoLower (lists : List (List κ)) (a b : κ) : Prop :=
  ∀ keys ∈ lists, b ∈ keys → a ∈ keys ∧ keys.idxOf a ≤ keys.idxOf b

/-- And in one of them it stands higher, or alone. -/
def Dominates (lists : List (List κ)) (a b : κ) : Prop :=
  NoLower lists a b ∧ ∃ keys ∈ lists, a ∈ keys ∧ (b ∈ keys → keys.idxOf a < keys.idxOf b)

omit [LinearOrder F] [DecidableEq κ] in
theorem entries_keys (lists : List (List α)) :
    (entries lists).map (fun entry => key entry.1) = (lists.map (List.map key)).flatten := by
  induction lists with
  | nil => rfl
  | cons l rest ih =>
    have here : l.zipIdx.map (fun entry => key entry.1) = l.map key := by
      rw [show (fun entry : α × ℕ => key entry.1) = key ∘ Prod.fst from rfl, ← List.map_map,
        List.zipIdx_map_fst]
    rw [List.map_cons, List.flatten_cons, ← ih, entries, List.flatMap_cons, List.map_append, here]
    rfl

theorem ranks_zipIdx {l : List α} (distinct : (l.map key).Nodup) (k : κ) :
    ranks key l.zipIdx k = if k ∈ l.map key then [(l.map key).idxOf k] else [] := by
  induction l using List.reverseRecOn with
  | nil => rfl
  | append_singleton l x ih =>
    rw [List.map_append, List.map_singleton] at distinct ⊢
    obtain ⟨earlier, -, new⟩ := List.nodup_append.mp distinct
    have split : ranks key (l ++ [x]).zipIdx k =
        ranks key l.zipIdx k ++ if key x = k then [l.length] else [] := by
      rw [ranks, List.zipIdx_append, List.filter_append, List.map_append]
      by_cases here : key x = k <;> simp [ranks, here]
    rw [split, ih earlier]
    by_cases here : key x = k
    · subst here
      have absent : key x ∉ l.map key := fun old => new _ old _ (List.mem_singleton_self _) rfl
      rw [if_neg absent, if_pos rfl, if_pos (by simp), List.idxOf_append_of_notMem absent]
      simp
    · by_cases old : k ∈ l.map key
      · rw [if_pos old, if_neg here, if_pos (List.mem_append_left _ old), List.append_nil,
          List.idxOf_append_of_mem old]
      · rw [if_neg old, if_neg here, if_neg (by simp [old, Ne.symm here]), List.append_nil]

theorem standings_cons (keys : List κ) (rest : List (List κ)) (k : κ) : standings (keys :: rest) k =
    (if k ∈ keys then [keys.idxOf k] else []) ++ standings rest k := by
  rw [standings, List.filterMap_cons]
  by_cases member : k ∈ keys
  · rw [if_pos member, if_pos member]
    rfl
  · rw [if_neg member, if_neg member]
    rfl

omit [LinearOrder F] in
theorem ranks_entries {lists : List (List α)} (distinct : ∀ l ∈ lists, (l.map key).Nodup) (k : κ) :
    ranks key (entries lists) k = standings (lists.map (List.map key)) k := by
  induction lists with
  | nil => rfl
  | cons l rest ih =>
    obtain ⟨here, later⟩ := List.forall_mem_cons.mp distinct
    rw [List.map_cons, standings_cons, ← ih later, ← ranks_zipIdx here, entries, ranks,
      List.flatMap_cons, List.filter_append, List.map_append]
    rfl

/-- The key that stands no lower gathers no less, from a start that is no lower. -/
theorem total_noLower (lawful : w.Lawful) {lists : List (List κ)} (noLower : NoLower lists a b)
    {x y : F} (le : y ≤ x) (reached : w.Reached x) (reached' : w.Reached y) :
    (standings lists b).foldl (fun score rank => w.add score (w.weight rank)) y ≤
      (standings lists a).foldl (fun score rank => w.add score (w.weight rank)) x := by
  induction lists generalizing x y with
  | nil => exact le
  | cons keys rest ih =>
    obtain ⟨here, later⟩ := List.forall_mem_cons.mp noLower
    rw [standings_cons, standings_cons, List.foldl_append, List.foldl_append]
    by_cases bMember : b ∈ keys
    · obtain ⟨aMember, higher⟩ := here bMember
      have nonneg := lawful.reached_nonneg reached'
      rw [if_pos bMember, if_pos aMember]
      exact ih later (lawful.mono nonneg le (lawful.nonneg _) (lawful.antitone higher))
        (.add reached (lawful.nonneg _)) (.add reached' (lawful.nonneg _))
    · rw [if_neg bMember]
      by_cases aMember : a ∈ keys
      · rw [if_pos aMember]
        exact ih later (le.trans (lawful.grows reached (lawful.nonneg _)))
          (.add reached (lawful.nonneg _)) reached'
      · rw [if_neg aMember]
        exact ih later le reached reached'

omit [LinearOrder F] in
theorem appears_first {lists : List (List κ)} (noLower : NoLower lists a b) (other : a ≠ b)
    (appears : ∃ keys ∈ lists, a ∈ keys) : lists.flatten.idxOf a < lists.flatten.idxOf b := by
  induction lists with
  | nil => simp at appears
  | cons keys rest ih =>
    obtain ⟨here, later⟩ := List.forall_mem_cons.mp noLower
    rw [List.flatten_cons]
    by_cases aMember : a ∈ keys
    · rw [List.idxOf_append_of_mem aMember]
      by_cases bMember : b ∈ keys
      · rw [List.idxOf_append_of_mem bMember]
        refine (here bMember).2.lt_of_ne fun same => other ?_
        exact (List.idxOf_inj aMember).mp same
      · rw [List.idxOf_append_of_notMem bMember]
        exact (List.idxOf_lt_length_of_mem aMember).trans_le (Nat.le_add_right _ _)
    · have bAbsent : b ∉ keys := fun bMember => aMember (here bMember).1
      obtain ⟨found, member, inside⟩ := appears
      have inRest : found ∈ rest := (List.mem_cons.mp member).resolve_left fun same =>
        aMember (same ▸ inside)
      rw [List.idxOf_append_of_notMem aMember, List.idxOf_append_of_notMem bAbsent]
      exact Nat.add_lt_add_left (ih later ⟨found, inRest, inside⟩) _

/-- No key comes after one that it dominates, whatever the arithmetic of the scores. -/
theorem Merged.pareto (lawful : w.Lawful) {lists : List (List α)} {out : List α}
    (distinct : ∀ l ∈ lists, (l.map key).Nodup) (merged : Merged w key (entries lists) out) :
    out.Pairwise fun a b => ¬ Dominates (lists.map (List.map key)) (key b) (key a) := by
  refine merged.ordered.imp fun {a b} ⟨below, tie⟩ ⟨noLower, keys, member, inside, strict⟩ => ?_
  have above : w.total (ranks key (entries lists) (key a)) ≤
      w.total (ranks key (entries lists) (key b)) := by
    rw [ranks_entries distinct, ranks_entries distinct]
    exact total_noLower lawful noLower le_rfl .zero .zero
  have before := tie (le_antisymm below above)
  rw [entries_keys] at before
  refine absurd before (appears_first noLower ?_ ⟨keys, member, inside⟩).not_gt
  rintro same
  rw [same] at inside strict
  exact lt_irrefl _ (strict inside)

end
end Fusion
end Lib
