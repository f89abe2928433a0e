import DistributedVector.Proofs.ShapeKey

/-!
# Well-formed formulas and their kernels

A formula is well formed if its tags name operators of the node's own category, its functions get
as many arguments as they have parameters, and devices support the types of its leaves. Every such
formula has a kernel for every result type that devices support, and formulas of one shape have one
kernel: name, text and parameters can be told from the shape.

## Main definitions

* `Formula.isWellFormed`
* `Shape.tokens`, `Shape.userCalls` — name parts and user functions of the formulas of a shape

## Main results

* `KernelSource.exists_ofFormula` — well-formed formulas have kernels
* `KernelSource.ofFormula_congr` — formulas of one shape have one kernel
* `Formula.kernelShape_inj` — the shape of a kernel tells its result type
-/

namespace DistributedVector

theorem DataType.isSupported_iff {t : DataType} : t.isSupported ↔ ∃ e, t = .element e := by
  cases t <;> simp

theorem DataType.token_inj {s t : DataType} (hs : s.isSupported) (ht : t.isSupported)
    (h : s.token = t.token) : s = t := by
  obtain ⟨e, rfl⟩ := isSupported_iff.mp hs
  obtain ⟨e', rfl⟩ := isSupported_iff.mp ht
  exact congrArg element (ElementType.token_injective h)

theorem UnaryOp.ofTag?_eq_some_iff {tag : String} {op : UnaryOp} :
    ofTag? tag = some op ↔ tag = op.tag := by
  constructor
  · intro h
    have htag := List.find?_some h
    simpa using (beq_iff_eq.mp htag).symm
  · rintro rfl
    exact ofTag?_tag op

theorem UnaryOp.tag_of_unaryOp {tag : String} {op : UnaryOp} (h : unaryOp tag = .ok op) :
    tag = op.tag := by
  rw [unaryOp] at h
  split at h
  next op' hop =>
    cases h
    exact ofTag?_eq_some_iff.mp hop
  · cases h

theorem BinaryOp.ofTag?_eq_some_iff {tag : String} {op : BinaryOp} :
    ofTag? tag = some op ↔ tag = op.tag := by
  constructor
  · intro h
    have htag := List.find?_some h
    simpa using (beq_iff_eq.mp htag).symm
  · rintro rfl
    exact ofTag?_tag op

theorem BinaryOp.tag_of_binaryOp {tag : String} {op : BinaryOp} (h : binaryOp tag = .ok op) :
    tag = op.tag := by
  rw [binaryOp] at h
  split at h
  next op' hop =>
    cases h
    exact ofTag?_eq_some_iff.mp hop
  · cases h

namespace Formula

mutual

/-- Whether all tags name operators of the category of their node, all functions get as many
arguments as they have parameters, and devices support the types of all leaves. -/
def isWellFormed : Formula DataType → Bool
  | vector t => t.isSupported
  | scalar _ t => t.isSupported
  | unary tag e => (UnaryOp.ofTag? tag).isSome && e.isWellFormed
  | binary tag l r => (BinaryOp.ofTag? tag).isSome && (l.isWellFormed && r.isWellFormed)
  | call g args => args.length == g.arity && areWellFormed args

/-- Whether all arguments are well formed. -/
def areWellFormed : List (Formula DataType) → Bool
  | [] => true
  | e :: rest => e.isWellFormed && areWellFormed rest

end

@[simp] theorem isWellFormed_unary_iff {tag : String} {e : Formula DataType} :
    (unary tag e).isWellFormed ↔ (∃ op : UnaryOp, tag = op.tag) ∧ e.isWellFormed := by
  simp [isWellFormed, Option.isSome_iff_exists, UnaryOp.ofTag?_eq_some_iff]

@[simp] theorem isWellFormed_binary_iff {tag : String} {l r : Formula DataType} :
    (binary tag l r).isWellFormed ↔
      (∃ op : BinaryOp, tag = op.tag) ∧ l.isWellFormed ∧ r.isWellFormed := by
  simp [isWellFormed, Option.isSome_iff_exists, BinaryOp.ofTag?_eq_some_iff]

@[simp] theorem isWellFormed_call_iff {g : Function} {args : List (Formula DataType)} :
    (call g args).isWellFormed ↔ args.length = g.arity ∧ areWellFormed args := by
  simp [isWellFormed]

@[simp] theorem areWellFormed_cons_iff {e : Formula DataType} {rest : List (Formula DataType)} :
    areWellFormed (e :: rest) ↔ e.isWellFormed ∧ areWellFormed rest := by
  simp [areWellFormed]

mutual

/-- Well-formed formulas have terms. -/
theorem exists_lowerFrom : (f : Formula DataType) → f.isWellFormed → ∀ n,
    ∃ t, f.lowerFrom n = .ok t
  | .vector _, _, _ => ⟨_, rfl⟩
  | .scalar _ _, _, _ => ⟨_, rfl⟩
  | .unary tag e, h, n => by
    obtain ⟨⟨op, rfl⟩, he⟩ := isWellFormed_unary_iff.mp h
    obtain ⟨t, ht⟩ := exists_lowerFrom e he n
    exact ⟨_, by rw [lowerFrom, unaryOp_tag, ht]; rfl⟩
  | .binary tag l r, h, n => by
    obtain ⟨⟨op, rfl⟩, hl, hr⟩ := isWellFormed_binary_iff.mp h
    obtain ⟨s, hs⟩ := exists_lowerFrom l hl n
    obtain ⟨t, ht⟩ := exists_lowerFrom r hr s.2
    exact ⟨_, by rw [lowerFrom, hs]; simp only [bind, Except.bind, ht, binaryOp_tag]; rfl⟩
  | .call g args, h, n => by
    obtain ⟨ts, hts⟩ := exists_lowerArgsFrom args (isWellFormed_call_iff.mp h).2 n
    exact ⟨_, by rw [lowerFrom, hts]; rfl⟩

theorem exists_lowerArgsFrom : (args : List (Formula DataType)) → areWellFormed args → ∀ n,
    ∃ ts, lowerArgsFrom args n = .ok ts
  | [], _, _ => ⟨_, rfl⟩
  | e :: rest, h, n => by
    obtain ⟨he, hrest⟩ := areWellFormed_cons_iff.mp h
    obtain ⟨t, ht⟩ := exists_lowerFrom e he n
    obtain ⟨ts, hts⟩ := exists_lowerArgsFrom rest hrest t.2
    exact ⟨_, by rw [lowerArgsFrom, ht]; simp only [bind, Except.bind, hts]; rfl⟩

end

mutual

/-- Devices support the types of the leaves of a well-formed formula. -/
theorem supported_of_mem_terminals : (f : Formula DataType) → f.isWellFormed →
    ∀ t ∈ f.terminals, t.type.isSupported
  | .vector t, h, _, hmem => by
    obtain rfl := List.mem_singleton.mp hmem
    exact h
  | .scalar _ t, h, _, hmem => by
    obtain rfl := List.mem_singleton.mp hmem
    exact h
  | .unary _ e, h, t, hmem => supported_of_mem_terminals e (isWellFormed_unary_iff.mp h).2 t hmem
  | .binary _ l r, h, t, hmem => by
    obtain ⟨-, hl, hr⟩ := isWellFormed_binary_iff.mp h
    rcases List.mem_append.mp hmem with hmem | hmem
    · exact supported_of_mem_terminals l hl t hmem
    · exact supported_of_mem_terminals r hr t hmem
  | .call _ args, h, t, hmem =>
    supported_of_mem_terminalsOfArgs args (isWellFormed_call_iff.mp h).2 t hmem

theorem supported_of_mem_terminalsOfArgs : (args : List (Formula DataType)) → areWellFormed args →
    ∀ t ∈ terminalsOfArgs args, t.type.isSupported
  | [], _, _, hmem => absurd hmem List.not_mem_nil
  | e :: rest, h, t, hmem => by
    obtain ⟨he, hrest⟩ := areWellFormed_cons_iff.mp h
    rcases List.mem_append.mp hmem with hmem | hmem
    · exact supported_of_mem_terminals e he t hmem
    · exact supported_of_mem_terminalsOfArgs rest hrest t hmem

end

end Formula

namespace Shape

mutual

/-- The parts of the readable name of the formulas of a shape. -/
def tokens : Shape → List String
  | vector t => ["v" ++ t]
  | scalar t => ["s" ++ t]
  | unary tag s => tag :: s.tokens
  | binary tag l r => tag :: (l.tokens ++ r.tokens)
  | call g args => g.name :: tokensOfArgs args

/-- The parts of the readable name for arguments. -/
def tokensOfArgs : List Shape → List String
  | [] => []
  | s :: rest => s.tokens ++ tokensOfArgs rest

end

mutual

/-- Calls of user functions in the formulas of a shape. -/
def userCalls : Shape → List UserFunction
  | vector _ | scalar _ => []
  | unary _ s => s.userCalls
  | binary _ l r => l.userCalls ++ r.userCalls
  | call g args => userCallsOfArgs args ++ g.user?.toList

/-- Calls of user functions in arguments. -/
def userCallsOfArgs : List Shape → List UserFunction
  | [] => []
  | s :: rest => s.userCalls ++ userCallsOfArgs rest

end

end Shape

namespace Formula

mutual

theorem tokens_eq : (f : Formula DataType) → f.tokens = f.shape.tokens
  | .vector _ => rfl
  | .scalar _ _ => rfl
  | .unary _ e => by rw [tokens, shape, Shape.tokens, tokens_eq e]
  | .binary _ l r => by rw [tokens, shape, Shape.tokens, tokens_eq l, tokens_eq r]
  | .call _ args => by rw [tokens, shape, Shape.tokens, tokensOfArgs_eq args]

theorem tokensOfArgs_eq : (args : List (Formula DataType)) →
    tokensOfArgs args = Shape.tokensOfArgs (shapes args)
  | [] => rfl
  | e :: rest => by
    rw [tokensOfArgs, shapes, Shape.tokensOfArgs, tokens_eq e, tokensOfArgs_eq rest]

end

mutual

theorem userCalls_eq : (f : Formula DataType) → f.userCalls = f.shape.userCalls
  | .vector _ => rfl
  | .scalar _ _ => rfl
  | .unary _ e => by rw [userCalls, shape, Shape.userCalls, userCalls_eq e]
  | .binary _ l r => by rw [userCalls, shape, Shape.userCalls, userCalls_eq l, userCalls_eq r]
  | .call _ args => by rw [userCalls, shape, Shape.userCalls, userCallsOfArgs_eq args]

theorem userCallsOfArgs_eq : (args : List (Formula DataType)) →
    userCallsOfArgs args = Shape.userCallsOfArgs (shapes args)
  | [] => rfl
  | e :: rest => by
    rw [userCallsOfArgs, shapes, Shape.userCallsOfArgs, userCalls_eq e, userCallsOfArgs_eq rest]

end

variable {f g : Formula DataType}

theorem userFunctions_congr (h : f.shape = g.shape) : f.userFunctions = g.userFunctions := by
  rw [userFunctions, userFunctions, userCalls_eq, userCalls_eq, h]

theorem kernelShape_congr (h : f.shape = g.shape) (result : Option DataType) :
    f.kernelShape result = g.kernelShape result := by
  rw [kernelShape, kernelShape, h]

/-- Kernels are named after shapes. -/
theorem kernelName_congr (h : f.shape = g.shape) (result : Option DataType) :
    f.kernelName result = g.kernelName result := by
  have hreadable : f.readableName result = g.readableName result := by
    rw [readableName, readableName, tokens_eq, tokens_eq, h]
  have hdigest : f.digestName result = g.digestName result := by
    rw [digestName, digestName, kernelShape_congr h]
  rw [kernelName, kernelName, hreadable, hdigest, userFunctions_congr h]

theorem lower_congr (h : f.shape = g.shape) : f.lower = g.lower := by
  rw [lower, lower, lowerFrom_eq, lowerFrom_eq, h]

/-- The shape of a kernel tells its result type, if devices support it, and the formula's shape. -/
theorem kernelShape_inj {r t : Option DataType} (hr : ∀ x ∈ r, x.isSupported)
    (ht : ∀ x ∈ t, x.isSupported) (h : f.kernelShape r = g.kernelShape t) :
    r = t ∧ f.shape = g.shape := by
  have htoken : r.map DataType.token = t.map DataType.token := congrArg KernelShape.result h
  apply And.intro _ (congrArg KernelShape.body h)
  cases r with
  | none => exact (Option.map_eq_none_iff.mp htoken.symm).symm
  | some r =>
    obtain ⟨x, rfl, hx⟩ := Option.map_eq_some_iff.mp htoken.symm
    rw [DataType.token_inj (ht x rfl) (hr r rfl) hx]

end Formula

/-- Leaves of the same kinds and tags have the same parameters, if devices support their types. -/
theorem parametersFrom_congr {ts us : List (Terminal DataType)}
    (h : ts.map (fun t => (t.kind, t.type.token)) = us.map fun t => (t.kind, t.type.token))
    (hts : ∀ t ∈ ts, t.type.isSupported) (hus : ∀ t ∈ us, t.type.isSupported) (first : Nat) :
    parametersFrom first ts = parametersFrom first us := by
  induction ts generalizing us first with
  | nil =>
    obtain rfl := List.map_eq_nil_iff.mp h.symm
    rfl
  | cons t ts ih =>
    cases us with
    | nil => cases h
    | cons u us =>
      simp only [List.map_cons, List.cons.injEq, Prod.mk.injEq] at h
      obtain ⟨⟨hkind, htoken⟩, hrest⟩ := h
      have htype := DataType.token_inj (hts t List.mem_cons_self) (hus u List.mem_cons_self) htoken
      have hparameters := ih hrest (fun x hx => hts x (List.mem_cons_of_mem _ hx))
        (fun x hx => hus x (List.mem_cons_of_mem _ hx)) (first + 1)
      rw [parametersFrom, parametersFrom, hkind, htype, hparameters]

theorem parametersFrom_supported {ts : List (Terminal DataType)}
    (h : ∀ t ∈ ts, t.type.isSupported) (first : Nat) :
    ∀ p ∈ parametersFrom first ts, p.type.isSupported := by
  induction ts generalizing first with
  | nil => exact fun p hp => absurd hp List.not_mem_nil
  | cons t ts ih =>
    intro p hp
    rcases List.mem_cons.mp hp with rfl | hp
    · exact h t List.mem_cons_self
    · exact ih (fun u hu => h u (List.mem_cons_of_mem _ hu)) (first + 1) p hp

/-- Parameters have the types of the leaves. -/
theorem supported_of_parametersFrom {ts : List (Terminal DataType)} {first : Nat}
    (h : ∀ p ∈ parametersFrom first ts, p.type.isSupported) : ∀ t ∈ ts, t.type.isSupported := by
  induction ts generalizing first with
  | nil => exact fun t ht => absurd ht List.not_mem_nil
  | cons t ts ih =>
    obtain ⟨hfirst, hrest⟩ := List.forall_mem_cons.mp h
    exact List.forall_mem_cons.mpr ⟨hfirst, ih hrest⟩

namespace KernelSource

variable {f g : Formula DataType}

/-- Formulas of one shape have one kernel, or are refused alike. -/
theorem ofFormula_congr (hf : ∀ t ∈ f.terminals, t.type.isSupported)
    (hg : ∀ t ∈ g.terminals, t.type.isSupported) (h : f.shape = g.shape) (result : DataType) :
    ofFormula f result = ofFormula g result := by
  -- shapes keep the names of types only, which tell the types that devices support
  have hparameters : f.parameters = g.parameters := by
    apply parametersFrom_congr _ hf hg
    rw [Formula.leaves_eq, Formula.leaves_eq, h]
  simp only [ofFormula, Formula.kernelName_congr h, hparameters, Formula.lower_congr h,
    Formula.userFunctions_congr h, Formula.kernelShape_congr h]

theorem exists_parameterText {p : Parameter} (h : p.type.isSupported) :
    ∃ text, parameterText p = .ok text := by
  obtain ⟨e, he⟩ := DataType.isSupported_iff.mp h
  exact ⟨_, by rw [parameterText, he]; rfl⟩

theorem exists_mapM_parameterText {params : List Parameter} (h : ∀ p ∈ params, p.type.isSupported) :
    ∃ texts, params.mapM parameterText = .ok texts := by
  induction params with
  | nil => exact ⟨[], rfl⟩
  | cons p rest ih =>
    obtain ⟨text, htext⟩ := exists_parameterText (h p List.mem_cons_self)
    obtain ⟨texts, htexts⟩ := ih fun q hq => h q (List.mem_cons_of_mem _ hq)
    exact ⟨_, by rw [List.mapM_cons, htext]; simp only [bind, Except.bind, htexts]; rfl⟩

/-- A well-formed formula has a kernel for every result type that devices support. -/
theorem exists_ofFormula (hf : f.isWellFormed) (e : ElementType) :
    ∃ source, ofFormula f (.element e) = .ok source := by
  obtain ⟨texts, htexts⟩ := exists_mapM_parameterText
    (parametersFrom_supported (f.supported_of_mem_terminals hf) 1)
  obtain ⟨t, ht⟩ := f.exists_lowerFrom hf 1
  have hsignature : ∃ entries, signature (.element e) f.parameters = .ok entries :=
    ⟨_, by rw [signature, Formula.parameters, htexts]; rfl⟩
  obtain ⟨entries, hentries⟩ := hsignature
  exact ⟨_, by rw [ofFormula, hentries, Formula.lower, ht]; rfl⟩

end KernelSource

end DistributedVector
