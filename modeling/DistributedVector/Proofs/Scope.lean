import DistributedVector.Proofs.KernelNames
import DistributedVector.Proofs.KernelText

/-!
# What the names in a kernel mean

The line that stores the result calls functions by their names alone. Around it stand the index of
the loop, the length, the result and the parameters of the signature, the user functions and the
kernel itself, and the functions that need no declaration. A call means the function of its node
exactly if no two functions that are called share a name and no user function has the name of
something else in the kernel.

## Main definitions

* `KernelSource.scopes` — the names around the line that stores the result, with the functions they
  name
* `Formula.CallsApart` — functions that are called have names of their own
* `Formula.Uncaptured` — user functions are not mistaken for something else

## Main results

* `Formula.callsApart_iff` — only names of user functions can clash
* `KernelSource.calls_resolve` — when all calls of a kernel mean the functions of the expression
-/

namespace DistributedVector

open Text

/-- The scopes around the line that stores the result, from the inside: the loop, the signature, the
file and what is known without a declaration. -/
def KernelSource.scopes (source : KernelSource) (declared : List UserFunction) :
    List (Scope Function) :=
  [[("idx", .value)],
    ("n", .value) :: ("res", .value) :: source.parameters.map fun p => (p.name, .value),
    declared.map (fun u => (u.name, .function (.user u))) ++ [(source.name, .kernel)],
    Builtin.all.map fun b => (b.name, .function (.builtin b))]

namespace Formula

variable {ν μ : Type}

/-- The names of a kernel that are no functions. -/
def reserved (f : Formula ν) (kernel : String) : List String :=
  "idx" :: "n" :: "res" :: kernel :: (List.range' 1 f.terminals.length).map parameterName

/-- Different functions that a formula calls have different names, and none of them is reserved. -/
structure CallsApart (f : Formula ν) (kernel : String) : Prop where
  apart : ∀ g ∈ f.functions, ∀ h ∈ f.functions, g.key ≠ h.key → g.name ≠ h.name
  free : ∀ g ∈ f.functions, g.name ∉ f.reserved kernel

/-- No user function has the name of another function that is called, or a name that is reserved. -/
structure Uncaptured (f : Formula ν) (kernel : String) : Prop where
  apart : ∀ u ∈ f.userCalls, ∀ g ∈ f.functions, g.name = u.name → g = .user u
  free : ∀ u ∈ f.userCalls, u.name ∉ f.reserved kernel

/-! ## Declarations -/

theorem mem_distinct {u : UserFunction} {us : List UserFunction} : u ∈ distinct us ↔ u ∈ us := by
  induction us with
  | nil => rfl
  | cons v rest ih =>
    rw [distinct, List.mem_cons, List.mem_cons, List.mem_filter, ih]
    by_cases huv : u = v
    · simp [huv]
    · have hkey : u.key ≠ v.key := fun h => huv (UserFunction.key_injective h)
      simp [huv, hkey]

theorem nodup_distinct (us : List UserFunction) : (distinct us).Nodup := by
  induction us with
  | nil => exact List.nodup_nil
  | cons v rest ih =>
    rw [distinct, List.nodup_cons]
    exact ⟨fun hmem => by simp at hmem, ih.filter _⟩

mutual

theorem userCalls_map (g : ν → μ) : (f : Formula ν) → (f.map g).userCalls = f.userCalls
  | vector _ | scalar _ _ => rfl
  | unary _ e => userCalls_map g e
  | binary _ l r => by simp only [map, userCalls, userCalls_map g l, userCalls_map g r]
  | call h args => by simp only [map, userCalls, userCallsOfArgs_map g args]

theorem userCallsOfArgs_map (g : ν → μ) : (args : List (Formula ν)) →
    userCallsOfArgs (mapArgs g args) = userCallsOfArgs args
  | [] => rfl
  | e :: rest => by
    simp only [mapArgs, userCallsOfArgs, userCalls_map g e, userCallsOfArgs_map g rest]

end

theorem names_parametersFrom (first : Nat) (leaves : List (Terminal DataType)) :
    (parametersFrom first leaves).map Parameter.name =
      (List.range' first leaves.length).map parameterName := by
  induction leaves generalizing first with
  | nil => rfl
  | cons t rest ih =>
    rw [parametersFrom, List.map_cons, ih, List.length_cons, List.range'_succ, List.map_cons]

/-! ## Builtin functions -/

theorem underscore_mem_kernelName (f : Formula DataType) (result : Option DataType) :
    '_' ∈ (f.kernelName result).toList := by
  have hprefix : '_' ∈ kernelPrefix.toList := by decide
  rw [kernelName]
  split
  · rw [digestName, String.toList_append]
    exact List.mem_append_left _ hprefix
  · rw [readableName, String.toList_append]
    exact List.mem_append_left _ hprefix

/-- Names without underscores are not reserved, but for the index, the length and the result. -/
theorem not_mem_reserved {f : Formula ν} {kernel : String} (hkernel : '_' ∈ kernel.toList)
    {name : String} (hunderscore : '_' ∉ name.toList)
    (hvalues : name ≠ "idx" ∧ name ≠ "n" ∧ name ≠ "res") :
    name ∉ f.reserved kernel := by
  intro hmem
  simp only [reserved, List.mem_cons, List.mem_map] at hmem
  rcases hmem with h | h | h | h | ⟨i, -, h⟩
  · exact hvalues.1 h
  · exact hvalues.2.1 h
  · exact hvalues.2.2 h
  · exact hunderscore (h ▸ hkernel)
  · refine hunderscore (h ▸ ?_)
    simp [parameterName]

/-- Nothing else in a kernel has the name of a builtin function. -/
theorem builtin_not_mem_reserved {f : Formula ν} {kernel : String} (hkernel : '_' ∈ kernel.toList)
    (b : Builtin) : b.name ∉ f.reserved kernel :=
  not_mem_reserved hkernel (by cases b <;> decide) (by cases b <;> decide)

/-- Names of builtin functions clash with nothing: only those of user functions have to be looked
at. -/
theorem callsApart_iff {f : Formula ν} {kernel : String} (hkernel : '_' ∈ kernel.toList) :
    f.CallsApart kernel ↔ f.Uncaptured kernel := by
  constructor
  · intro h
    refine ⟨fun u hu g hg hname => ?_, fun u hu => h.free _ (mem_userCalls f |>.mp hu)⟩
    by_contra hne
    exact h.apart g hg (.user u) (mem_userCalls f |>.mp hu)
      (fun hkey => hne (Function.key_injective hkey))
      hname
  · intro h
    refine ⟨fun g hg k hk hkey hname => hkey ?_, fun g hg => ?_⟩
    · cases k with
      | user u => rw [h.apart u (mem_userCalls f |>.mpr hk) g hg hname]
      | builtin b =>
        cases g with
        | user u => rw [h.apart u (mem_userCalls f |>.mpr hg) (.builtin b) hk hname.symm]
        | builtin c => rw [Builtin.name_injective hname]
    · cases g with
      | user u => exact h.free u (mem_userCalls f |>.mpr hg)
      | builtin b => exact builtin_not_mem_reserved hkernel b

end Formula

/-! ## Lookup -/

section Lookup

variable {φ ψ : Type} {name : String} {scope : Scope φ} {outer : List (Scope φ)}

/-- A scope that does not have the name is passed over. -/
theorem meanings_of_notMem (h : name ∉ scope.map (·.1)) :
    meanings name (scope :: outer) = meanings name outer := by
  have hnone : scope.filter (·.1 = name) = [] := by
    rw [List.filter_eq_nil_iff]
    intro p hp hname
    exact h (List.mem_map.mpr ⟨p, hp, of_decide_eq_true hname⟩)
  rw [meanings, hnone]

/-- The first scope that has the name decides. -/
theorem meanings_of_mem (h : name ∈ scope.map (·.1)) :
    meanings name (scope :: outer) = (scope.filter (·.1 = name)).map (·.2) := by
  obtain ⟨p, hp, hname⟩ := List.mem_map.mp h
  rw [meanings]
  split
  next hnone =>
    rw [List.filter_eq_nil_iff] at hnone
    exact absurd (decide_eq_true hname) (hnone p hp)
  next => rfl

/-- A name can mean all that the first scope that has it declares it as. -/
theorem mem_meanings {m : Meaning φ} (h : (name, m) ∈ scope) :
    m ∈ meanings name (scope :: outer) := by
  rw [meanings_of_mem (List.mem_map_of_mem h)]
  exact List.mem_map.mpr ⟨(name, m), List.mem_filter.mpr ⟨h, decide_eq_true rfl⟩, rfl⟩

end Lookup

namespace KernelSource

open Formula

variable {ν : Type} {f : Formula ν} {source : KernelSource}

/-- The names of the values around the line that stores the result are the reserved ones but for
that of the kernel. -/
theorem mem_reserved_iff {name : String}
    (hparams : source.parameters.map Parameter.name =
      (List.range' 1 f.terminals.length).map parameterName) :
    name ∈ f.reserved source.name ↔ name = "idx" ∨
      name ∈ ("n" :: "res" :: source.parameters.map Parameter.name) ∨ name = source.name := by
  simp only [reserved, List.mem_cons, hparams]
  tauto

/-- A name that is not reserved is looked up among the declared functions and the builtin ones. -/
theorem meanings_of_notMem_reserved {name : String}
    (hparams : source.parameters.map Parameter.name =
      (List.range' 1 f.terminals.length).map parameterName)
    (hname : name ∉ f.reserved source.name) (declared : List UserFunction) :
    meanings name (source.scopes declared) =
      meanings name [declared.map (fun u => (u.name, .function (.user u))),
        Builtin.all.map fun b => (b.name, .function (.builtin b))] := by
  rw [mem_reserved_iff hparams, not_or, not_or] at hname
  obtain ⟨hindex, hsignature, hkernel⟩ := hname
  let functions : Scope Function := declared.map fun u => (u.name, .function (.user u))
  have hfile : (functions ++ [(source.name, Meaning.kernel)]).filter (·.1 = name) =
      functions.filter (·.1 = name) := by
    have hne : source.name ≠ name := fun h => hkernel h.symm
    rw [List.filter_append, List.filter_cons_of_neg (by simpa using hne), List.filter_nil,
      List.append_nil]
  rw [scopes, meanings_of_notMem (by simpa using hindex), meanings_of_notMem]
  · rw [meanings, hfile]
    rfl
  · simpa [Function.comp_def] using hsignature

/-- A reserved name means something that is no function. -/
theorem exists_meaning_of_reserved {name : String}
    (hparams : source.parameters.map Parameter.name =
      (List.range' 1 f.terminals.length).map parameterName)
    (hname : name ∈ f.reserved source.name) (declared : List UserFunction) :
    ∃ m ∈ meanings name (source.scopes declared), ∀ g, m ≠ .function g := by
  rw [mem_reserved_iff hparams] at hname
  rw [scopes]
  -- from the inside: the loop, then the signature, and the kernel in the file
  by_cases hindex : name = "idx"
  · exact ⟨.value, mem_meanings (by simp [hindex]), nofun⟩
  rw [meanings_of_notMem (by simpa using hindex)]
  by_cases hsignature : name ∈ "n" :: "res" :: source.parameters.map Parameter.name
  · refine ⟨.value, mem_meanings ?_, nofun⟩
    simpa [eq_comm] using hsignature
  rw [meanings_of_notMem (by simpa [Function.comp_def] using hsignature)]
  have hkernel : name = source.name := (hname.resolve_left hindex).resolve_left hsignature
  exact ⟨.kernel, mem_meanings (by simp [hkernel]), nofun⟩

theorem meanings_builtin (b : Builtin) :
    meanings b.name [Builtin.all.map fun b => (b.name, Meaning.function (Function.builtin b))] =
      [.function (.builtin b)] := by
  cases b <;> decide

/-- A user function that shares its name with no other one is found by its name. -/
theorem meanings_user {declared : List UserFunction} (hnodup : declared.Nodup) {u : UserFunction}
    (hu : u ∈ declared) (hapart : ∀ v ∈ declared, v.name = u.name → v = u)
    (outer : List (Scope Function)) :
    meanings u.name (declared.map (fun u => (u.name, .function (.user u))) :: outer) =
      [.function (.user u)] := by
  have hfilter : declared.filter (·.name = u.name) = [u] := by
    have hsame : declared.filter (·.name = u.name) = declared.filter (· = u) :=
      List.filter_congr fun v hv => decide_eq_decide.mpr
        ⟨hapart v hv, fun h => congrArg UserFunction.name h⟩
    rw [hsame, List.filter_eq, List.count_eq_one_of_mem hnodup hu, List.replicate_one]
  have hmem : u.name ∈
      (declared.map fun u => (u.name, Meaning.function (Function.user u))).map (·.1) := by
    rw [List.map_map]
    exact List.mem_map_of_mem hu
  rw [meanings_of_mem hmem, List.filter_map, List.map_map]
  simp only [Function.comp_def, hfilter, List.map_cons, List.map_nil]

/-- All calls mean the functions of their nodes exactly if no user function is captured. -/
theorem meanings_eq_iff
    (hparams : source.parameters.map Parameter.name =
      (List.range' 1 f.terminals.length).map parameterName) (hkernel : '_' ∈ source.name.toList) :
    (∀ g ∈ f.functions, meanings g.name (source.scopes f.userFunctions) = [.function g]) ↔
      f.Uncaptured source.name := by
  constructor
  · intro h
    refine ⟨fun u hu g hg hname => ?_, fun u hu hreserved => ?_⟩
    · -- one name, and so one meaning
      have huser := h _ (mem_userCalls f |>.mp hu)
      have hcall := h g hg
      rw [hname] at hcall
      simpa using hcall.symm.trans huser
    · obtain ⟨m, hm, hne⟩ := exists_meaning_of_reserved hparams hreserved f.userFunctions
      have huser : meanings u.name (source.scopes f.userFunctions) = [.function (.user u)] :=
        h _ (mem_userCalls f |>.mp hu)
      rw [huser, List.mem_singleton] at hm
      exact hne _ hm
  · intro h g hg
    cases g with
    | user u =>
      have hu := mem_userCalls f |>.mpr hg
      have hsame : ∀ v ∈ f.userFunctions, v.name = u.name → v = u := by
        intro v hv hname
        have hv : .user v ∈ f.functions := mem_userCalls f |>.mp (mem_distinct.mp hv)
        simpa using h.apart u hu _ hv hname
      have hname : (Function.user u).name = u.name := rfl
      rw [hname, meanings_of_notMem_reserved hparams (h.free u hu)]
      exact meanings_user (nodup_distinct _) (mem_distinct.mpr hu) hsame _
    | builtin b =>
      have hname : (Function.builtin b).name = b.name := rfl
      rw [hname, meanings_of_notMem_reserved hparams (builtin_not_mem_reserved hkernel b),
        meanings_of_notMem, meanings_builtin]
      -- a user function of that name would hide the builtin one
      intro hmem
      simp only [List.map_map, List.mem_map, Function.comp_apply] at hmem
      obtain ⟨u, hu, hsame⟩ := hmem
      cases h.apart u (mem_distinct.mp hu) (.builtin b) hg hsame.symm

/-- What the calls of a generated kernel mean. The line that stores the result calls the functions
of the expression by their names, and each call means the function of its node exactly if no two
user functions that are called, and no user function and builtin function, share a name and no user
function is named like a value or the kernel. Then, and only then, all functions have names of their
own. -/
theorem calls_resolve {e : Expr ν} {typeOf : ν → DataType} {result : DataType}
    (he : e.formula = .ok f) (hnames : ∀ u ∈ f.userCalls, isIdentifier u.name)
    (hsource : generate typeOf e result = .ok source) :
    ∃ t r signature, f.lower = .ok t ∧
      source.text = "\n".intercalate (lines (f.userFunctions.map UserFunction.declaration)
        source.name signature t.render) ++ "\n" ∧
      Reading.read t.render = some r ∧ r.called = f.functions.map Function.name ∧
      (f.CallsApart source.name ↔ f.Uncaptured source.name) ∧
      (r.called.map (meanings · (source.scopes f.userFunctions)) =
        f.functions.map (fun g => [.function g]) ↔ f.Uncaptured source.name) := by
  have hsource : ofFormula (f.map typeOf) result = .ok source := by rwa [generate, he] at hsource
  have hkernel : '_' ∈ source.name.toList :=
    name_of_ofFormula hsource ▸ underscore_mem_kernelName _ _
  obtain ⟨-, -, -, hparameters, -⟩ := ofFormula_eq_ok hsource
  have hparams : source.parameters.map Parameter.name =
      (List.range' 1 f.terminals.length).map parameterName := by
    rw [hparameters, Formula.parameters, names_parametersFrom, terminals_map, List.length_map]
  obtain ⟨t, signature, ht, -, htext⟩ := text_of_ofFormula hsource
  have hlower : f.lower = .ok t := by rw [← ht, lower, lower, lowerFrom_map]
  obtain ⟨o, ho⟩ := exists_lower_iff.mp ⟨_, hlower⟩
  obtain ⟨t', ht', hread, -, -, hcalled⟩ := exists_read_render ho hnames
  obtain rfl : t = t' := Except.ok.inj (hlower.symm.trans ht')
  rw [userFunctions, userCalls_map, ← userFunctions] at htext
  refine ⟨t, _, signature, hlower, htext, hread, hcalled, callsApart_iff hkernel, ?_⟩
  rw [hcalled, List.map_map, ← meanings_eq_iff hparams hkernel]
  exact List.map_inj_left

/-- Two user functions and a builtin one, all by names of their own. -/
theorem calls_resolve_apart :
    let scale : UserFunction := ⟨"scale", .float64, [("x", .float64)], "return 2 * x;"⟩
    let shift : UserFunction := ⟨"shift", .float64, [("x", .float64)], "return x + 1;"⟩
    let f : Formula DataType := .binary "add" (.call (.user scale) [.vector (.element .float64)])
      (.call (.builtin .sqrt) [.call (.user shift) [.vector (.element .float64)]])
    ∃ source t r, f.toExpr.formula = .ok f ∧ (∀ u ∈ f.userCalls, isIdentifier u.name) ∧
      generate id f.toExpr (.element .float64) = .ok source ∧ f.lower = .ok t ∧
      Reading.read t.render = some r ∧ r.called = ["scale", "sqrt", "shift"] ∧
      r.called.map (meanings · (source.scopes f.userFunctions)) =
        [[.function (.user scale)], [.function (.builtin .sqrt)], [.function (.user shift)]] := by
  intro scale shift f
  have he : f.toExpr.formula = .ok f := rfl
  have hnames : ∀ u ∈ f.userCalls, isIdentifier u.name := by decide +kernel
  obtain ⟨source, hsource⟩ := exists_ofFormula (f := f) (by decide) .float64
  have hgenerate : generate id f.toExpr (.element .float64) = .ok source :=
    generate_eq_ok (f := f) rfl hsource
  obtain ⟨t, r, signature, ht, -, hread, hcalled, -, hresolve⟩ := calls_resolve he hnames hgenerate
  have hkernel : '_' ∈ source.name.toList :=
    name_of_ofFormula hsource ▸ underscore_mem_kernelName _ _
  have huncaptured : f.Uncaptured source.name := by
    have hplain : ∀ u ∈ f.userCalls,
        '_' ∉ u.name.toList ∧ u.name ≠ "idx" ∧ u.name ≠ "n" ∧ u.name ≠ "res" := by decide +kernel
    refine ⟨by decide +kernel, fun u hu => ?_⟩
    exact not_mem_reserved hkernel (hplain u hu).1 (hplain u hu).2
  exact ⟨source, t, r, he, hnames, hgenerate, ht, hread, hcalled, hresolve.mpr huncaptured⟩

end KernelSource

end DistributedVector
