import Mathlib.Tactic.IntervalCases
import Nl2SqlAgent.Lib.Double
import Nl2SqlAgent.Lib.Fusion
import Nl2SqlAgent.Lib.PyText

/-! Hybrid retrieval (`retrieval/hybrid_search.py`): the BM25 list, and the fusion of the two
lists by reciprocal ranks in double precision. The semantic search and the BM25 scores are
parameters. -/
namespace Nl2SqlAgent

open Lib

namespace HybridSearch

/-- What is retrieved; a key that the metadata do not have reads as an empty text. -/
structure Item where
  content : String
  source : String
  metadata : PyDict String String
  deriving DecidableEq, Repr

def Item.key (item : Item) : String :=
  let m := item.metadata
  (m.lookup "db_id").getD "" ++ "::" ++ (m.lookup "table_name").getD "" ++ "::" ++
    (m.lookup "chunk_type").getD ""

/-- One entry of `_bm25_corpus_meta`. -/
structure Chunk where
  id : String
  document : String
  dbId : String
  tableName : String
  chunkType : String
  sourcePath : String
  deriving DecidableEq, Repr

def Chunk.place (c : Chunk) : String × String × String := (c.dbId, c.tableName, c.chunkType)

def Chunk.item (c : Chunk) : Item :=
  ⟨c.document, c.sourcePath,
    [("db_id", c.dbId), ("table_name", c.tableName), ("chunk_type", c.chunkType)]⟩

/-- The index: the chunks, and the score of each for the words of a question. -/
structure Bm25 where
  corpus : List Chunk
  getScores : List String → ℕ → ℚ

def tokenize (case : Py.Case) (text : String) : List String :=
  Py.runs Py.isWordChar (case.lower text)

/-- The loop over the scored chunks. -/
def collect (k : ℕ) : List (ℚ × Chunk) → List (String × String × String) → List Item → List Item
  | [], _, results => results
  | (_, c) :: rest, seen, results =>
    if c.place ∈ seen then collect k rest seen results
    else if k ≤ results.length + 1 then results ++ [c.item]
    else collect k rest (seen ++ [c.place]) (results ++ [c.item])

def bm25Search (case : Py.Case) (bm25 : Bm25) (question dbId : String) (k : ℕ) : List Item :=
  let tokenized := tokenize case question
  if tokenized = [] ∨ bm25.corpus = [] then []
  else
    let scores := bm25.getScores tokenized
    let scored := (bm25.corpus.zipIdx.filter fun entry => entry.1.dbId = dbId).map fun entry =>
      (scores entry.2, entry.1)
    collect k (scored.mergeSort fun a b => b.1 ≤ a.1) [] []

/-- The arithmetic of the scores: `scores.get(rk, 0) + 1.0 / (k + rank + 1)` in doubles. -/
def doubles (k : ℕ) : Weighing ℚ where
  zero := 0
  add x y := Double.round (x + y)
  weight rank := Double.round (1 / Double.round (k + rank + 1 : ℕ))

def rrfK : ℕ := 60

/-- `_rrf_merge`; `none` is a `KeyError`. -/
def rrfMerge (resultLists : List (List Item)) (k : ℕ := rrfK) : Option (List Item) :=
  Fusion.merged (Fusion.pool (doubles k) Item.key (Fusion.entries resultLists))

/-- `hybrid_retrieve`; `retrieveBird` is the semantic search. -/
def hybridRetrieve (case : Py.Case) (bm25 : Bm25) (retrieveBird : String → String → ℕ → List Item)
    (question dbId : String) (k : ℕ := 8) : Option (List Item) :=
  let semanticResults := retrieveBird question dbId (k * 2)
  let bm25Results := bm25Search case bm25 question dbId (k * 2)
  if bm25Results = [] then some (semanticResults.take k)
  else if semanticResults = [] then some (bm25Results.take k)
  else (rrfMerge [semanticResults, bm25Results]).map (·.take k)

section Doubles

theorem doubles_lawful (k : ℕ) : (doubles k).Lawful := by
  have reached {x : ℚ} (path : (doubles k).Reached x) : 0 ≤ x ∧ Double.IsDouble x := by
    induction path with
    | zero => exact ⟨le_rfl, 0, 0, by norm_num, by simp [doubles]⟩
    | add _ nonneg ih =>
      have sum := add_nonneg ih.1 nonneg
      exact ⟨Double.round_nonneg sum, Double.isDouble_round sum⟩
  constructor
  · intro n
    exact Double.round_nonneg (one_div_nonneg.mpr (Double.round_nonneg (Nat.cast_nonneg _)))
  · intro m n le
    -- the divisors are at least one
    have divisors := Double.round_mono (Nat.cast_nonneg (k + m + 1) : (0 : ℚ) ≤ _)
      (by exact_mod_cast (by omega : k + m + 1 ≤ k + n + 1) : ((k + m + 1 : ℕ) : ℚ) ≤ (k + n + 1 : ℕ))
    have one : Double.round (1 : ℕ) ≤ Double.round (k + m + 1 : ℕ) :=
      Double.round_mono (Nat.cast_nonneg 1) (by exact_mod_cast Nat.le_add_left 1 (k + m))
    rw [Double.round_eq_self (Double.isDouble_natCast (by norm_num)), Nat.cast_one] at one
    exact Double.round_mono (one_div_nonneg.mpr (Double.round_nonneg (Nat.cast_nonneg _)))
      (one_div_le_one_div_of_le (zero_lt_one.trans_le one) divisors)
  · intro x x' y y' nonneg le nonneg' le'
    exact Double.round_mono (add_nonneg nonneg nonneg') (add_le_add le le')
  · intro x y path nonneg
    obtain ⟨low, double⟩ := reached path
    calc x = Double.round x := (Double.round_eq_self double).symm
      _ ≤ Double.round (x + y) := Double.round_mono low (le_add_of_nonneg_right nonneg)

theorem total_singleton (k r : ℕ) : (doubles k).total [r] = (doubles k).weight r := by
  have nonneg : (0 : ℚ) ≤ 1 / Double.round (k + r + 1 : ℕ) :=
    one_div_nonneg.mpr (Double.round_nonneg (Nat.cast_nonneg _))
  calc (doubles k).total [r] = Double.round (0 + (doubles k).weight r) := rfl
    _ = Double.round ((doubles k).weight r) := by rw [zero_add]
    _ = (doubles k).weight r := Double.round_round nonneg

theorem total_pair (k r s : ℕ) :
    (doubles k).total [r, s] = Double.round ((doubles k).weight r + (doubles k).weight s) := by
  rw [← total_singleton k r]
  rfl

end Doubles

section Bm25

end Bm25

/-- The exact sum of the reciprocals. -/
def exactSum (ranks : List ℕ) : ℚ := (ranks.map fun rank => 1 / ((rrfK + rank + 1 : ℕ) : ℚ)).sum

section Exact

variable {ranks others : List ℕ}

/-- Ranks in at most two lists, none of which has more than ten thousand items. -/
def Bounded (ranks : List ℕ) : Prop := ranks.length ≤ 2 ∧ ∀ rank ∈ ranks, rank < 10000

theorem Bounded.cases (bounded : Bounded ranks) : ranks = [] ∨ (∃ r < 10000, ranks = [r]) ∨
    ∃ r < 10000, ∃ s < 10000, ranks = [r, s] := by
  obtain ⟨few, low⟩ := bounded
  match ranks, few, low with
  | [], _, _ => exact .inl rfl
  | [r], _, low => exact .inr (.inl ⟨r, low r (by simp), rfl⟩)
  | [r, s], _, low => exact .inr (.inr ⟨r, low r (by simp), s, low s (by simp), rfl⟩)

theorem weight_error {r : ℕ} (low : r < 10000) :
    |(doubles rrfK).weight r - 1 / ((rrfK + r + 1 : ℕ) : ℚ)| ≤ 1 / 61 / 2 ^ 53 := by
  have divisor : (61 : ℚ) ≤ (rrfK + r + 1 : ℕ) := by
    exact_mod_cast (by simp only [rrfK]; omega : 61 ≤ rrfK + r + 1)
  have small : rrfK + r + 1 < 2 ^ 53 := by simp only [rrfK]; omega
  have error := Double.round_error (one_div_pos.mpr ((by norm_num : (0 : ℚ) < 61).trans_le divisor))
  calc |(doubles rrfK).weight r - 1 / ((rrfK + r + 1 : ℕ) : ℚ)|
      = |Double.round (1 / (rrfK + r + 1 : ℕ)) - 1 / (rrfK + r + 1 : ℕ)| := by
        rw [show (doubles rrfK).weight r = Double.round (1 / Double.round (rrfK + r + 1 : ℕ)) from rfl,
          Double.round_eq_self (Double.isDouble_natCast small)]
    _ ≤ 1 / (rrfK + r + 1 : ℕ) / 2 ^ 53 := error
    _ ≤ 1 / 61 / 2 ^ 53 :=
        div_le_div_of_nonneg_right (one_div_le_one_div_of_le (by norm_num) divisor) (by positivity)

theorem weight_le {r : ℕ} (low : r < 10000) :
    0 ≤ (doubles rrfK).weight r ∧ (doubles rrfK).weight r ≤ 1 / 60 := by
  refine ⟨(doubles_lawful rrfK).nonneg r, ?_⟩
  have divisor : (61 : ℚ) ≤ (rrfK + r + 1 : ℕ) := by
    exact_mod_cast (by simp only [rrfK]; omega : 61 ≤ rrfK + r + 1)
  have most : (1 : ℚ) / (rrfK + r + 1 : ℕ) ≤ 1 / 61 := one_div_le_one_div_of_le (by norm_num) divisor
  have error := (abs_le.mp (weight_error low)).2
  norm_num at error most ⊢
  linarith

theorem total_error (bounded : Bounded ranks) :
    |(doubles rrfK).total ranks - exactSum ranks| ≤ 1 / 2 ^ 56 := by
  rcases bounded.cases with rfl | ⟨r, low, rfl⟩ | ⟨r, low, s, low', rfl⟩
  · simp [Weighing.total, doubles, exactSum]
  · rw [total_singleton, exactSum, List.map_singleton, List.sum_singleton]
    exact (weight_error low).trans (by norm_num)
  · obtain ⟨nonneg, most⟩ := weight_le low
    obtain ⟨nonneg', most'⟩ := weight_le low'
    have errors := abs_le.mp (weight_error low)
    have errors' := abs_le.mp (weight_error low')
    have rounded : |Double.round ((doubles rrfK).weight r + (doubles rrfK).weight s) -
        ((doubles rrfK).weight r + (doubles rrfK).weight s)| ≤ 1 / 30 / 2 ^ 53 := by
      rcases (add_nonneg nonneg nonneg').eq_or_lt with none | positive
      · rw [← none]
        norm_num
      · apply (Double.round_error positive).trans
        exact div_le_div_of_nonneg_right (by linarith) (by positivity)
    have roundings := abs_le.mp rounded
    rw [total_pair, exactSum, List.map_cons, List.map_singleton, List.sum_pair, abs_le]
    norm_num at errors errors' roundings ⊢
    constructor <;> linarith

theorem exactSum_fraction (bounded : Bounded ranks) :
    ∃ n d : ℕ, 0 < d ∧ d ≤ 10060 ^ 2 ∧ exactSum ranks = n / d := by
  rcases bounded.cases with rfl | ⟨r, low, rfl⟩ | ⟨r, low, s, low', rfl⟩
  · exact ⟨0, 1, by norm_num, by norm_num, by simp [exactSum]⟩
  · exact ⟨1, rrfK + r + 1, by omega, by simp only [rrfK]; omega, by simp [exactSum]⟩
  · refine ⟨(rrfK + s + 1) + (rrfK + r + 1), (rrfK + r + 1) * (rrfK + s + 1), by positivity, ?_, ?_⟩
    · rw [sq]
      exact Nat.mul_le_mul (by simp only [rrfK]; omega) (by simp only [rrfK]; omega)
    · rw [exactSum, List.map_cons, List.map_singleton, List.sum_pair]
      push_cast
      field_simp

/-- Exact sums that differ are so far apart that the scores differ alike. -/
theorem total_lt (bounded : Bounded ranks) (bounded' : Bounded others)
    (less : exactSum ranks < exactSum others) :
    (doubles rrfK).total ranks < (doubles rrfK).total others := by
  obtain ⟨n, d, positive, small, value⟩ := exactSum_fraction bounded
  obtain ⟨n', d', positive', small', value'⟩ := exactSum_fraction bounded'
  have denominator : (0 : ℚ) < d * d' := by exact_mod_cast Nat.mul_pos positive positive'
  have gap : (1 : ℚ) / (10060 ^ 2 * 10060 ^ 2) ≤ exactSum others - exactSum ranks := by
    have numerators : n * d' + 1 ≤ n' * d := by
      rw [value, value', div_lt_div_iff₀ (by exact_mod_cast positive) (by exact_mod_cast positive')] at less
      exact_mod_cast less
    calc (1 : ℚ) / (10060 ^ 2 * 10060 ^ 2) ≤ 1 / (d * d') :=
          one_div_le_one_div_of_le denominator (by exact_mod_cast Nat.mul_le_mul small small')
      _ ≤ (n' * d - n * d') / (d * d') := by
          refine div_le_div_of_nonneg_right ?_ denominator.le
          have cast : (n * d' + 1 : ℚ) ≤ n' * d := by exact_mod_cast numerators
          linarith
      _ = exactSum others - exactSum ranks := by
          have nonzero : (d : ℚ) ≠ 0 := by exact_mod_cast positive.ne'
          have nonzero' : (d' : ℚ) ≠ 0 := by exact_mod_cast positive'.ne'
          rw [value, value']
          field_simp
  have error := abs_le.mp (total_error bounded)
  have error' := abs_le.mp (total_error bounded')
  norm_num at gap error error'
  linarith

end Exact

abbrev keys (results : List Item) : List String := results.map Item.key

/-- The ranks of a key in the semantic and in the BM25 list. -/
def ranksOf (semantic bm25 : List Item) (key : String) : List ℕ :=
  Fusion.standings [keys semantic, keys bm25] key

/-- The semantic and the BM25 list fused by a score: each key once, with the item of the first
list that has it, by non-increasing scores, those that are equal in the order of the first
appearance; and none after one that it dominates. -/
structure Fused (score : List ℕ → ℚ) (semantic bm25 out : List Item) : Prop where
  once : (keys out).Nodup
  union : ∀ key, key ∈ keys out ↔ key ∈ keys semantic ∨ key ∈ keys bm25
  first : ∀ item ∈ out, (semantic ++ bm25).find? (fun other => other.key = item.key) = some item
  ordered : out.Pairwise fun a b =>
    score (ranksOf semantic bm25 b.key) ≤ score (ranksOf semantic bm25 a.key) ∧
      (score (ranksOf semantic bm25 b.key) = score (ranksOf semantic bm25 a.key) →
        (keys (semantic ++ bm25)).idxOf a.key < (keys (semantic ++ bm25)).idxOf b.key)
  pareto : out.Pairwise fun a b => ¬ Fusion.Dominates [keys semantic, keys bm25] b.key a.key

section

variable {semantic bm25 : List Item}

theorem bounded_ranksOf (short : semantic.length ≤ 10000) (short' : bm25.length ≤ 10000)
    (key : String) : Bounded (ranksOf semantic bm25 key) := by
  refine ⟨List.length_filterMap_le _ _, fun rank member => ?_⟩
  obtain ⟨list, inside, found⟩ := List.mem_filterMap.mp member
  have length : list.length ≤ 10000 := by
    rcases List.mem_pair.mp inside with rfl | rfl <;> simpa
  split at found
  next here =>
    obtain rfl := Option.some.inj found
    exact (List.idxOf_lt_length_of_mem here).trans_le length
  next => contradiction

theorem rrfMerge_fused (distinct : (keys semantic).Nodup) (distinct' : (keys bm25).Nodup) :
    ∃ out, rrfMerge [semantic, bm25] = some out ∧
      Fused (doubles rrfK).total semantic bm25 out := by
  obtain ⟨out, merged, spec⟩ :=
    Fusion.merged_spec (doubles rrfK) Item.key (Fusion.entries [semantic, bm25])
  have nodup : ∀ l ∈ [semantic, bm25], (l.map Item.key).Nodup := by
    simpa using ⟨distinct, distinct'⟩
  have together : (Fusion.entries [semantic, bm25]).map (fun entry => entry.1.key) =
      keys (semantic ++ bm25) := by
    simp [Fusion.entries_keys]
  have items : (Fusion.entries [semantic, bm25]).map Prod.fst = semantic ++ bm25 := by
    simp [Fusion.entries, List.zipIdx_map_fst]
  refine ⟨out, merged, spec.once, fun key => ?_, ?_, ?_, spec.pareto (doubles_lawful rrfK) nodup⟩
  · rw [spec.all, together, keys, List.map_append, List.mem_append]
  · rw [← items]
    exact spec.first
  · have ordered := spec.ordered
    simp only [Fusion.ranks_entries nodup, together] at ordered
    exact ordered

/-- Of two items in a list that is fused by two scores, one stands before the other by both. -/
theorem Fused.before_or {score score' : List ℕ → ℚ} {out : List Item} {a b : Item}
    (fused : Fused score semantic bm25 out) (fused' : Fused score' semantic bm25 out)
    (aMember : a ∈ out) (bMember : b ∈ out) (other : a ≠ b) :
    (score (ranksOf semantic bm25 b.key) ≤ score (ranksOf semantic bm25 a.key) ∧
      (score' (ranksOf semantic bm25 b.key) = score' (ranksOf semantic bm25 a.key) →
        (keys (semantic ++ bm25)).idxOf a.key < (keys (semantic ++ bm25)).idxOf b.key)) ∨
    (score (ranksOf semantic bm25 a.key) ≤ score (ranksOf semantic bm25 b.key) ∧
      (score' (ranksOf semantic bm25 a.key) = score' (ranksOf semantic bm25 b.key) →
        (keys (semantic ++ bm25)).idxOf b.key < (keys (semantic ++ bm25)).idxOf a.key)) := by
  have both := (fused.ordered.imp And.left).and (fused'.ordered.imp And.right)
  obtain ⟨i, low, rfl⟩ := List.mem_iff_getElem.mp aMember
  obtain ⟨j, low', rfl⟩ := List.mem_iff_getElem.mp bMember
  rw [List.pairwise_iff_getElem] at both
  rcases Nat.lt_trichotomy i j with before | rfl | after
  · exact .inl (both i j low low' before)
  · exact absurd rfl other
  · exact .inr (both j i low' low after)

theorem exact_pairwise {out : List Item} (fused : Fused (doubles rrfK).total semantic bm25 out)
    (short : semantic.length ≤ 10000) (short' : bm25.length ≤ 10000) : out.Pairwise fun a b =>
      exactSum (ranksOf semantic bm25 b.key) ≤ exactSum (ranksOf semantic bm25 a.key) := by
  refine fused.ordered.imp fun {a b} both => not_lt.mp fun less => ?_
  have strict := total_lt (bounded_ranksOf short short' a.key) (bounded_ranksOf short short' b.key) less
  exact absurd both.1 strict.not_ge

end

/-- Fusion orders by the sums in double precision, which for lists of up to ten thousand items
never disagrees with the exact sums; and of the fused list the first `k` are retrieved. -/
theorem rrf_merge_fuses :
    (∀ semantic bm25 : List Item, (keys semantic).Nodup → (keys bm25).Nodup →
      ∃ out, rrfMerge [semantic, bm25] = some out ∧
        Fused (doubles rrfK).total semantic bm25 out ∧
        (semantic.length ≤ 10000 → bm25.length ≤ 10000 → out.Pairwise fun a b =>
          exactSum (ranksOf semantic bm25 b.key) ≤ exactSum (ranksOf semantic bm25 a.key))) ∧
    ∀ (case : Py.Case) (bm25 : Bm25) (retrieveBird : String → String → ℕ → List Item)
      (question dbId : String) (k : ℕ),
      ∃ out, hybridRetrieve case bm25 retrieveBird question dbId k = some out ∧ out.length ≤ k ∧
        (bm25Search case bm25 question dbId (k * 2) = [] →
          out = (retrieveBird question dbId (k * 2)).take k) ∧
        (retrieveBird question dbId (k * 2) = [] →
          out = (bm25Search case bm25 question dbId (k * 2)).take k) := by
  constructor
  · intro semantic bm25 distinct distinct'
    obtain ⟨out, merged, fused⟩ := rrfMerge_fused distinct distinct'
    exact ⟨out, merged, fused, exact_pairwise fused⟩
  · intro case bm25 retrieveBird question dbId k
    unfold hybridRetrieve
    dsimp only
    split
    next none =>
      exact ⟨_, rfl, List.length_take_le _ _, fun _ => rfl, fun empty => by rw [empty, none]⟩
    next some =>
      split
      next empty => exact ⟨_, rfl, List.length_take_le _ _, fun none => absurd none some, fun _ => rfl⟩
      next full =>
        obtain ⟨out, merged, -⟩ := Fusion.merged_spec (doubles rrfK) Item.key
          (Fusion.entries [retrieveBird question dbId (k * 2), bm25Search case bm25 question dbId (k * 2)])
        exact ⟨out.take k, congrArg (Option.map (·.take k)) merged, List.length_take_le _ _,
          fun none => absurd none some, fun empty => absurd empty full⟩

/-- A chunk of a table, as both searches return it. -/
def tableItem (name : String) : Item :=
  ⟨name, "", [("db_id", "shop"), ("table_name", name), ("chunk_type", "schema")]⟩

/-- Two lists of tables: `orders` stands at the ranks 11 and 27, `items` at 38 and 5. -/
def semanticTables : List Item := (List.range 39).map fun i =>
  tableItem (if i = 11 then "orders" else if i = 38 then "items" else "a" ++ toString i)

def bm25Tables : List Item := (List.range 28).map fun i =>
  tableItem (if i = 27 then "orders" else if i = 5 then "items" else "b" ++ toString i)

theorem tables_distinct : (keys semanticTables).Nodup ∧ (keys bm25Tables).Nodup := by
  decide +kernel

theorem rrf_merge_fuses_tables : ∃ out, rrfMerge [semanticTables, bm25Tables] = some out ∧
    Fused (doubles rrfK).total semanticTables bm25Tables out :=
  have ⟨out, merged, fused, _⟩ :=
    rrf_merge_fuses.1 semanticTables bm25Tables tables_distinct.1 tables_distinct.2
  ⟨out, merged, fused⟩

/-- The exact sums of these are equal, and `orders` appears first; but its sum in doubles is less
by the last bit, and it comes second. -/
theorem tie_broken : (keys semanticTables).Nodup ∧ (keys bm25Tables).Nodup ∧
    ∃ out, rrfMerge [semanticTables, bm25Tables] = some out ∧
      ¬ Fused exactSum semanticTables bm25Tables out := by
  obtain ⟨out, merged, fused⟩ := rrfMerge_fused tables_distinct.1 tables_distinct.2
  refine ⟨tables_distinct.1, tables_distinct.2, out, merged, fun exact => ?_⟩
  have ranks : ranksOf semanticTables bm25Tables (tableItem "orders").key = [11, 27] ∧
      ranksOf semanticTables bm25Tables (tableItem "items").key = [38, 5] := by decide +kernel
  have less : (doubles rrfK).total [11, 27] < (doubles rrfK).total [38, 5] ∧
      exactSum [11, 27] = exactSum [38, 5] := by decide +kernel
  have first : (keys (semanticTables ++ bm25Tables)).idxOf (tableItem "orders").key <
      (keys (semanticTables ++ bm25Tables)).idxOf (tableItem "items").key := by decide +kernel
  have known : (tableItem "orders").key ∈ keys semanticTables ∧
      (tableItem "items").key ∈ keys semanticTables := by decide +kernel
  obtain ⟨orders, ordersMember, ordersKey⟩ := List.mem_map.mp ((fused.union _).mpr (.inl known.1))
  obtain ⟨items, itemsMember, itemsKey⟩ := List.mem_map.mp ((fused.union _).mpr (.inl known.2))
  have ordered := fused.before_or exact ordersMember itemsMember fun same => by
    rw [same, itemsKey] at ordersKey
    exact absurd ordersKey (by decide +kernel)
  rw [ordersKey, itemsKey, ranks.1, ranks.2] at ordered
  rcases ordered with ⟨below, -⟩ | ⟨-, tie⟩
  · exact absurd below less.1.not_ge
  · exact absurd (tie less.2) first.not_gt

end HybridSearch
end Nl2SqlAgent
