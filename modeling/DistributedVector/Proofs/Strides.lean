import DistributedVector.Kernel.Loop
import Mathlib.Algebra.Order.Ring.Nat
import Mathlib.Data.List.Nodup
import Mathlib.Data.List.ProdSigma
import Mathlib.Data.Nat.ModEq

/-!
# The threads of a launch share the indices

The loop of a kernel is run by each thread of a grid, with unsigned numbers of 32 and of 64 bits
that wrap around. As long as the length of the slice and the number of threads together fit in 64
bits nothing wraps around that counts: a thread visits the indices that leave its number as
remainder by the number of threads, and all threads together visit each index of the slice once.

## Main definitions

* `Thread`, `IndexTerm.value` — a thread, and what an index term is for it
* `Visits`, `StrideLoop.Run` — the indices that the loop of a thread visits until it ends
* `StrideLoop.Covers` — all threads together visit each index once

## Main results

* `exists_visits` — a loop ends and has visited the indices of its residue class
* `strideLoop_covers` — the threads of a grid cover a slice
-/

namespace DistributedVector

/-- A thread with its place in a grid. -/
structure Thread where
  block : Nat
  thread : Nat
  blockSize : Nat
  gridSize : Nat

/-- What a thread finds in a register. -/
def Thread.read (t : Thread) : Register → Nat
  | .block => t.block
  | .thread => t.thread
  | .blockSize => t.blockSize
  | .gridSize => t.gridSize

/-- An unsigned number, which is one of 64 bits if it is wide and one of 32 bits otherwise. -/
structure Word where
  wide : Bool
  value : Nat

/-- An operation on unsigned numbers, which has a wide result if one of them is wide, and wraps
around. -/
def Word.apply (op : Nat → Nat → Nat) (a b : Word) : Word :=
  let wide := a.wide || b.wide
  ⟨wide, op a.value b.value % if wide then 2 ^ 64 else 2 ^ 32⟩

/-- The operation on several numbers, from left to right. -/
def Word.applyAll (op : Nat → Nat → Nat) (unit : Nat) : List Word → Word
  | [] => ⟨false, unit⟩
  | a :: rest => rest.foldl (Word.apply op) a

/-- What an index term is for a thread, as an index, which has 64 bits. -/
def IndexTerm.value (e : IndexTerm) (t : Thread) : Nat :=
  let products := e.map fun product =>
    Word.applyAll (· * ·) 1 (product.map fun x => ⟨x.wide, t.read x.register⟩)
  (Word.applyAll (· + ·) 0 products).value % 2 ^ 64

/-- The indices that a loop visits from an index on until it ends, for slices of `n` elements. -/
inductive Visits (stride n : Nat) : Nat → List Nat → Prop
  | ends {i : Nat} (h : n ≤ i) : Visits stride n i []
  | next {i : Nat} {rest : List Nat} (h : i < n)
    (hrest : Visits stride n ((i + stride) % 2 ^ 64) rest) : Visits stride n i (i :: rest)

/-- A thread ends the loop after it has visited the given indices. -/
def StrideLoop.Run (l : StrideLoop) (n : Nat) (t : Thread) (visited : List Nat) : Prop :=
  Visits (l.stride.value t) n (l.first.value t) visited

/-- Every thread of a grid ends the loop, and all threads together visit each index of a slice once,
and no other one. -/
def StrideLoop.Covers (l : StrideLoop) (g w p : Nat) : Prop :=
  (∀ b < g, ∀ t < w, ∃ visited, l.Run p ⟨b, t, w, g⟩ visited) ∧
  ∀ visited : Nat → Nat → List Nat,
    (∀ b < g, ∀ t < w, l.Run p ⟨b, t, w, g⟩ (visited b t)) →
    ((List.range g ×ˢ List.range w).flatMap fun q => visited q.1 q.2).Perm (List.range p)

/-- A loop visits the same indices in each of its runs. -/
theorem Visits.unique {stride n i : Nat} {xs ys : List Nat} (hx : Visits stride n i xs)
    (hy : Visits stride n i ys) : xs = ys := by
  induction hx generalizing ys with
  | ends h =>
    cases hy with
    | ends => rfl
    | next h' => omega
  | next h _ ih =>
    cases hy with
    | ends h' => omega
    | next _ hrest => rw [ih hrest]

/-- Behind an index, the next one with the same remainder is a stride further. -/
theorem le_of_mod_eq {stride i j : Nat} (hlt : i < j) (h : j % stride = i % stride) :
    i + stride ≤ j := by
  have hdvd : stride ∣ j - i := (Nat.modEq_iff_dvd' (Nat.le_of_lt hlt)).mp h.symm
  have := Nat.le_of_dvd (by omega) hdvd
  omega

/-- A loop ends if the last index and a stride fit in 64 bits, and has then visited the indices of
its residue class, each of them once. -/
theorem exists_visits {stride n : Nat} (hstride : 0 < stride)
    (hfits : n + stride ≤ 2 ^ 64) (i : Nat) :
    ∃ xs, Visits stride n i xs ∧ xs.Nodup ∧ ∀ j, j ∈ xs ↔
    i ≤ j ∧ j < n ∧ j % stride = i % stride := by
  by_cases hi : i < n
  · -- the next index is not wrapped around, and closer to the end
    have hnext : (i + stride) % 2 ^ 64 = i + stride := Nat.mod_eq_of_lt (by omega)
    obtain ⟨xs, hvisits, hnodup, hmem⟩ := exists_visits hstride hfits (i + stride)
    have hnot : i ∉ xs := by
      rw [hmem]
      omega
    refine ⟨i :: xs, .next hi (hnext.symm ▸ hvisits),
      List.nodup_cons.mpr ⟨hnot, hnodup⟩, fun j => ?_⟩
    rw [List.mem_cons, hmem, Nat.add_mod_right]
    constructor
    · rintro (rfl | ⟨hle, hlt, hmod⟩)
      · exact ⟨Nat.le_refl _, hi, rfl⟩
      · exact ⟨by omega, hlt, hmod⟩
    · rintro ⟨hle, hlt, hmod⟩
      rcases Nat.eq_or_lt_of_le hle with heq | hlt'
      · exact .inl heq.symm
      · exact .inr ⟨le_of_mod_eq hlt' hmod, hlt, hmod⟩
  · refine ⟨[], .ends (by omega), List.nodup_nil, fun j => ?_⟩
    simp only [List.not_mem_nil, false_iff]
    omega
termination_by n - i

section Grid

variable {g w p b t : Nat}

/-- The number of a thread in the whole grid is below the number of threads. -/
theorem thread_lt (hb : b < g) (ht : t < w) : b * w + t < g * w :=
  calc b * w + t < b * w + w := by omega
    _ = (b + 1) * w := (Nat.succ_mul b w).symm
    _ ≤ g * w := Nat.mul_le_mul_right w hb

/-- Threads start at their numbers and stride by the number of threads. -/
theorem strideLoop_run_iff (hb : b < g) (ht : t < w) (hfits : g * w < 2 ^ 64) {xs : List Nat} :
    strideLoop.Run p ⟨b, t, w, g⟩ xs ↔ Visits (g * w) p (b * w + t) xs := by
  have hthread := thread_lt hb ht
  have hfirst : strideLoop.first.value ⟨b, t, w, g⟩ = b * w + t := by
    simp only [strideLoop, IndexTerm.value, Word.applyAll, Word.apply, Thread.read, List.map_cons,
      List.map_nil, List.foldl_cons, List.foldl_nil, Bool.or_true, Bool.or_false, if_true]
    rw [Nat.mod_eq_of_lt (show b * w < 2 ^ 64 by omega), Nat.mod_mod, Nat.mod_eq_of_lt (by omega)]
  have hstride : strideLoop.stride.value ⟨b, t, w, g⟩ = g * w := by
    simp only [strideLoop, IndexTerm.value, Word.applyAll, Word.apply, Thread.read, List.map_cons,
      List.map_nil, List.foldl_cons, List.foldl_nil, Bool.or_false, if_true]
    rw [Nat.mod_mod, Nat.mul_comm w g, Nat.mod_eq_of_lt hfits]
  rw [StrideLoop.Run, hfirst, hstride]

/-- The loop of a thread ends, and has visited the indices that leave the number of the thread as
remainder, each of them once. -/
theorem exists_run (hb : b < g) (ht : t < w) (hfits : p + g * w ≤ 2 ^ 64) :
    ∃ xs, strideLoop.Run p ⟨b, t, w, g⟩ xs ∧ xs.Nodup ∧
      ∀ j, j ∈ xs ↔ j < p ∧ j % (g * w) = b * w + t := by
  rcases Nat.eq_zero_or_pos p with rfl | hp
  · -- nothing is computed with the stride, which may wrap around
    exact ⟨[], .ends (Nat.zero_le _), List.nodup_nil, by simp⟩
  have hthread := thread_lt hb ht
  obtain ⟨xs, hvisits, hnodup, hmem⟩ := exists_visits (by omega) hfits (b * w + t)
  refine ⟨xs, (strideLoop_run_iff hb ht (by omega)).mpr hvisits, hnodup, fun j => ?_⟩
  rw [hmem, Nat.mod_eq_of_lt hthread]
  constructor
  · rintro ⟨-, hlt, hmod⟩
    exact ⟨hlt, hmod⟩
  · rintro ⟨hlt, hmod⟩
    exact ⟨hmod ▸ Nat.mod_le j _, hlt, hmod⟩

/-- Threads of different places have different numbers. -/
theorem thread_inj {b' t' : Nat} (ht : t < w) (ht' : t' < w) (h : b * w + t = b' * w + t') :
    b = b' ∧ t = t' := by
  have hdiv : ∀ b t, t < w → (b * w + t) / w = b := fun b t ht => by
    rw [Nat.mul_comm, Nat.mul_add_div (by omega), Nat.div_eq_of_lt ht, Nat.add_zero]
  have hb : b = b' := by rw [← hdiv b t ht, h, hdiv b' t' ht']
  subst hb
  exact ⟨rfl, by omega⟩

/-- The threads of a grid cover a slice if its length and their number together fit in 64 bits. -/
theorem strideLoop_covers (hfits : p + g * w ≤ 2 ^ 64) (hpos : 0 < g * w) :
    strideLoop.Covers g w p := by
  refine ⟨fun b hb t ht => ?_, fun visited hruns => ?_⟩
  · obtain ⟨xs, hrun, -⟩ := exists_run hb ht hfits
    exact ⟨xs, hrun⟩
  have hvisited : ∀ q ∈ List.range g ×ˢ List.range w, q.2 < w ∧ (visited q.1 q.2).Nodup ∧
      ∀ j, j ∈ visited q.1 q.2 ↔ j < p ∧ j % (g * w) = q.1 * w + q.2 := by
    intro q hq
    obtain ⟨hb, ht⟩ := List.mem_product.mp hq
    rw [List.mem_range] at hb ht
    obtain ⟨xs, hrun, hspec⟩ := exists_run hb ht hfits
    exact ⟨ht, Visits.unique (hruns q.1 hb q.2 ht) hrun ▸ hspec⟩
  have hthreads : (List.range g ×ˢ List.range w).Nodup := List.nodup_range.product List.nodup_range
  have hnodup : ((List.range g ×ˢ List.range w).flatMap fun q => visited q.1 q.2).Nodup := by
    refine List.nodup_flatMap.mpr ⟨fun q hq => (hvisited q hq).2.1, ?_⟩
    refine hthreads.pairwise_of_forall_ne fun q hq q' hq' hne => ?_
    -- an index leaves the number of one thread only
    intro j hj hj'
    obtain ⟨ht, -, hmem⟩ := hvisited q hq
    obtain ⟨ht', -, hmem'⟩ := hvisited q' hq'
    obtain ⟨hb, ht⟩ := thread_inj ht ht' (((hmem j).mp hj).2.symm.trans ((hmem' j).mp hj').2)
    exact hne (Prod.ext hb ht)
  refine (List.perm_ext_iff_of_nodup hnodup List.nodup_range).mpr fun j => ?_
  rw [List.mem_flatMap, List.mem_range]
  constructor
  · rintro ⟨q, hq, hj⟩
    exact (((hvisited q hq).2.2 j).mp hj).1
  · intro hj
    -- the thread whose number is the remainder
    have hw : 0 < w := Nat.pos_of_mul_pos_left hpos
    have hblock : j % (g * w) / w < g :=
      Nat.div_lt_of_lt_mul (Nat.mul_comm g w ▸ Nat.mod_lt j hpos)
    have hq : (j % (g * w) / w, j % (g * w) % w) ∈ List.range g ×ˢ List.range w :=
      List.mem_product.mpr ⟨List.mem_range.mpr hblock, List.mem_range.mpr (Nat.mod_lt _ hw)⟩
    exact ⟨_, hq, ((hvisited _ hq).2.2 j).mpr ⟨hj, (Nat.div_add_mod' _ w).symm⟩⟩

end Grid

end DistributedVector
