import DistributedVector.Proofs.Refinement

/-!
# Rejected assignments

An assignment is refused for the kind of what is assigned, for its layout, or for the shape of an
operator. Kinds and layouts are all looked at before the first command. Shapes are looked at when
the product has its turn: if something has been written to the target by then, it stays.

## Main definitions

* `Store.Unchanged` — nothing has changed

## Main results

* `Reachable.rejected_assign` — a refusal changes nothing, or it is that of a late misfit, and what
  comes before has been carried out
* `Reachable.assign_unchanged_of_rejection` — without a late misfit, nothing changes
-/

namespace DistributedVector

variable {σ V : Type} {A : Arithmetic V} {h : Handler σ} {view : σ → Memory} {hardware : Hardware}
  {S S' : Store} {x x' : σ} {v : VectorId} {source : Operand VectorId} {fault : Fault}

/-- All vectors are as before, with the last command of each shard, and so are all buffers. -/
def Store.Unchanged (S : Store) (m : Memory) (S' : Store) (m' : Memory) : Prop :=
  S'.vectors = S.vectors ∧ ∀ b buf, m.buffer b = some buf → m'.buffer b = some buf

/-- A refused assignment changes nothing, or the first misfit among its products is a late one; then
the vectors hold what the rest and the products before it make of plain arrays. -/
theorem Reachable.rejected_assign (meets : h.Meets view (deviceContract A fun _ _ _ => True))
    (hreach : Reachable h view (.unrestricted hardware) S x)
    (hrun : ((Store.assign v source).runFrom S).run h x = ((.error fault, S'), x'))
    (hrejected : fault.Rejection) :
    S.Unchanged (view x) S' (view x') ∨
      fault.kind = .shape ∧ ∃ e before, source.toExpr = .ok e ∧ S.BreaksOff v e before ∧
        ∃ q, (S.plain (view x)).assignUpTo A.byKernel v e before = some q ∧
        S'.Represents (view x') q := by
  have hleft := (Store.assign_ensures (hreach.valid meets) (.self _ _)).of_run_error meets hrun
  rcases hleft.2 hrejected with ⟨hvectors, hdiff⟩ | hbroken
  · exact .inl ⟨hvectors, fun b buf hb => hdiff.buffer_eq hb List.not_mem_nil⟩
  · obtain ⟨hkind, e, before, he, hbreak, -, q, hq, hrep⟩ := hbroken
    exact .inr ⟨hkind, e, before, he, hbreak, q, hq, hrep⟩

/-- A refused assignment changes nothing, unless it is refused for an operator that does not fit,
behind something that has been written. -/
theorem Reachable.assign_unchanged_of_rejection
    (meets : h.Meets view (deviceContract A fun _ _ _ => True))
    (hreach : Reachable h view (.unrestricted hardware) S x)
    (hrun : ((Store.assign v source).runFrom S).run h x = ((.error fault, S'), x'))
    (hrejected : fault.Rejection) (hearly : fault.kind = .shape → ∀ e before,
      source.toExpr = .ok e → ¬ S.BreaksOff v e before) :
    S.Unchanged (view x) S' (view x') := by
  rcases Reachable.rejected_assign meets hreach hrun hrejected with hsame | hbroken
  · exact hsame
  · obtain ⟨hkind, e, before, he, hbreak, -⟩ := hbroken
    exact absurd hbreak (hearly hkind e before he)

namespace Sample

/-- An operator with too many rows for vectors of three elements. -/
def tall : LinearOperator := ⟨"tall", 4, 3, fun _ _ n => some (Array.replicate n 0)⟩

end Sample

/-- A vector is assigned its product with an operator that does not fit. -/
theorem Reachable.assign_unchanged_of_rejection_sample : ∃ fault S' x',
    Sample.run (Store.assign 1 (.expr (.product Sample.tall 0))) Sample.vectors =
      ((.error fault, S'), x') ∧
    Sample.vectors.1.Unchanged Sample.vectors.2.memory S' x'.memory := by
  have hearly : ∀ e before, (Operand.expr (.product Sample.tall 0)).toExpr = .ok e →
      ¬ Sample.vectors.1.BreaksOff 1 e before := by
    rintro e before ⟨⟩ ⟨q, after, hsplit, -, -, hlate⟩
    cases before with
    | nil => cases hlate rfl
    | cons head rest => cases rest <;> cases hsplit
  have hrun : Sample.run (Store.assign 1 (.expr (.product Sample.tall 0))) Sample.vectors =
      ((.error (.vector (.operatorShape 4 3 3 3)), Sample.vectors.1), Sample.vectors.2) := rfl
  exact ⟨_, _, _, hrun, Reachable.assign_unchanged_of_rejection (Machine.Executing.meets _)
    Sample.reachable_vectors hrun (.inr (.inl rfl)) fun _ => hearly⟩

-- behind a vector, the same product is refused when the vector has been copied to the target
example :
    let r := Sample.run (Store.assign 1 (.expr (.binary BinaryOp.add.tag (.vector 0)
      (.product Sample.tall 0)))) Sample.vectors
    r.1.1.toOption = none ∧
      (r.1.2.vectors[1]?).map (·.shards) ≠ (Sample.vectors.1.vectors[1]?).map (·.shards) := by
  decide +kernel

end DistributedVector
