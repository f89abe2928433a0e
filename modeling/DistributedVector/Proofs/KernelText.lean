import DistributedVector.Proofs.Reading
import DistributedVector.Proofs.ShapeKey
import DistributedVector.Vector.Launch

/-!
# What the text of a kernel means

The term that a kernel evaluates at each index can be read back to operators, called functions and
kinds of leaves of the formula. Its parameters are the leaves from left to right, and the parameters
of the signature and the arguments of a launch come in the same order.

## Main definitions

* `Formula.reading?` — what the text of a formula is to show
* `KernelTerm.reading` — what the text of a term shows
* `Formula.Placed` — a leaf in the text, in the signature and among the arguments

## Main results

* `KernelTerm.toList_render` — the text of a term is its reading written out
* `Formula.lowerFrom_reading` — lowering numbers the leaves from left to right
* `Formula.read_render` — the text denotes the formula
-/

namespace DistributedVector

open Text

variable {ν μ : Type}

/-! ## Names -/

theorem Builtin.isIdentifier_name (b : Builtin) : isIdentifier b.name := by
  cases b <;> decide +kernel

theorem isIdentifier_parameterName (i : Nat) : isIdentifier (parameterName i) := by
  have hdigits : ∀ c ∈ i.repr.toList, isIdentifierRest c := by
    intro c hc
    rw [Nat.toList_repr] at hc
    have hdigit : c.isDigit := Nat.isDigit_of_mem_toDigits (by decide) (by decide) hc
    have hascii : c.val < 0x80 := by
      simp only [Char.isDigit, Bool.and_eq_true, decide_eq_true_eq] at hdigit
      exact UInt32.lt_of_le_of_lt hdigit.2 (by decide)
    simp [isIdentifierRest, hascii, Char.isAlphanum, hdigit]
  have hstart : isIdentifierStart 'p' := rfl
  have hword : ∀ c ∈ ['r', 'm', '_'], isIdentifierRest c := by
    simp only [List.forall_mem_cons, List.not_mem_nil, IsEmpty.forall_iff, implies_true, and_true]
    exact ⟨rfl, rfl, rfl⟩
  have hchars : (parameterName i).toList = 'p' :: (['r', 'm', '_'] ++ i.repr.toList) := by
    simp [parameterName]
  rw [isIdentifier, hchars]
  simp only [Bool.and_eq_true, List.all_eq_true, List.mem_append]
  exact ⟨hstart, fun c hc => hc.elim (hword c) (hdigits c)⟩

theorem parameterName_injective : Function.Injective parameterName := by
  intro i j h
  have htail : i.repr = j.repr := (String.append_right_inj _).mp h
  exact Nat.repr_inj.mp htail

namespace KernelTerm

mutual

/-- What the text of a term shows. -/
def reading : KernelTerm → Reading Mention
  | entry i => .leaf ⟨.vector, parameterName i⟩
  | value i => .leaf ⟨.scalar, parameterName i⟩
  | unary op t => .unary op t.reading
  | binary op l r => .binary op l.reading r.reading
  | call f args => .call f.name (readings args)

/-- What the texts of arguments show. -/
def readings : List KernelTerm → List (Reading Mention)
  | [] => []
  | t :: rest => t.reading :: readings rest

end

theorem intercalate_cons {α : Type} (sep first : List α) (rest : List (List α)) :
    sep.intercalate (first :: rest) = first ++ rest.flatMap (sep ++ ·) := by
  induction rest generalizing first with
  | nil => rw [List.intercalate_singleton, List.flatMap_nil, List.append_nil]
  | cons next rest ih =>
    rw [List.intercalate_cons_cons, ih, List.flatMap_cons, List.append_assoc, List.append_assoc]

mutual

/-- The text of a term is its reading written out. -/
theorem toList_render : (t : KernelTerm) → t.render.toList = t.reading.chars
  | entry i => by simp [render, reading, Reading.chars, Reading.charsOfMention]
  | value i => by simp [render, reading, Reading.chars, Reading.charsOfMention]
  | unary op t => by simp [render, reading, Reading.chars, toList_render t]
  | binary op l r => by simp [render, reading, Reading.chars, toList_render l, toList_render r]
  | call f args => by
    have hargs : ", ".toList.intercalate ((renderArgs args).map String.toList) =
        Reading.charsOfArgs (readings args) := by
      cases args with
      | nil => rfl
      | cons t rest =>
        rw [renderArgs, List.map_cons, intercalate_cons, toList_render t, List.flatMap_map]
        exact congrArg (t.reading.chars ++ ·) (flatMap_renderArgs rest)
    simp only [render, String.toList_append, String.toList_intercalate, hargs]
    simp [reading, Reading.chars]

theorem flatMap_renderArgs : (args : List KernelTerm) →
    (renderArgs args).flatMap (fun s => ", ".toList ++ s.toList) =
      Reading.charsOfMore (readings args)
  | [] => rfl
  | t :: rest => by
    rw [renderArgs, List.flatMap_cons, flatMap_renderArgs rest, toList_render t]
    simp [readings, Reading.charsOfMore]

end

end KernelTerm

namespace Formula

mutual

/-- What the text of a formula is to show: its operators, the functions it calls and the kinds of
its leaves. There is nothing to show if a tag is no operator of the right kind. -/
def reading? : Formula ν → Option (Reading ParameterKind)
  | vector _ => some (.leaf .vector)
  | scalar _ _ => some (.leaf .scalar)
  | unary tag e => do return .unary (← UnaryOp.ofTag? tag) (← e.reading?)
  | binary tag l r => do return .binary (← BinaryOp.ofTag? tag) (← l.reading?) (← r.reading?)
  | call g args => do return .call g.name (← readingsOfArgs? args)

/-- What the texts of arguments are to show. -/
def readingsOfArgs? : List (Formula ν) → Option (List (Reading ParameterKind))
  | [] => some []
  | e :: rest => do return (← e.reading?) :: (← readingsOfArgs? rest)

end

mutual

/-- The functions that a formula calls, each call before those in its arguments. -/
def functions : Formula ν → List Function
  | vector _ | scalar _ _ => []
  | unary _ e => e.functions
  | binary _ l r => l.functions ++ r.functions
  | call g args => g :: functionsOfArgs args

/-- The functions that arguments call. -/
def functionsOfArgs : List (Formula ν) → List Function
  | [] => []
  | e :: rest => e.functions ++ functionsOfArgs rest

end

mutual

theorem mem_userCalls {g : UserFunction} :
    (f : Formula ν) → (g ∈ f.userCalls ↔ .user g ∈ f.functions)
  | vector _ | scalar _ _ => by simp [userCalls, functions]
  | unary _ e => mem_userCalls e
  | binary _ l r => by simp [userCalls, functions, mem_userCalls l, mem_userCalls r]
  | call h args => by
    cases h <;> simp [userCalls, functions, mem_userCallsOfArgs args, Function.user?, or_comm]

theorem mem_userCallsOfArgs {g : UserFunction} : (args : List (Formula ν)) →
    (g ∈ userCallsOfArgs args ↔ .user g ∈ functionsOfArgs args)
  | [] => by simp [userCallsOfArgs, functionsOfArgs]
  | e :: rest => by
    simp [userCallsOfArgs, functionsOfArgs, mem_userCalls e, mem_userCallsOfArgs rest]

end

/-- Leaves as the text mentions them, numbered from `next`. -/
def mentions (next : Nat) (leaves : List (Terminal ν)) : List Mention :=
  (leaves.zipIdx next).map fun p => ⟨p.1.kind, parameterName p.2⟩

theorem mentions_append (next : Nat) (leaves more : List (Terminal ν)) :
    mentions next (leaves ++ more) = mentions next leaves ++
      mentions (next + leaves.length) more := by
  rw [mentions, List.zipIdx_append, List.map_append, mentions, mentions, Nat.add_comm]

mutual

/-- Lowering a formula keeps what its text is to show and numbers its leaves from left to right. -/
theorem lowerFrom_reading : (f : Formula ν) → ∀ {r : Reading ParameterKind}, f.reading? = some r →
    ∀ next, ∃ t, f.lowerFrom next = .ok (t, next + f.terminals.length) ∧
      t.reading.map Mention.kind = r ∧ t.reading.leaves = mentions next f.terminals ∧
      t.reading.called = f.functions.map Function.name
  | vector _, _, h, next => by
    cases h
    exact ⟨_, rfl, rfl, rfl, rfl⟩
  | scalar _ _, _, h, next => by
    cases h
    exact ⟨_, rfl, rfl, rfl, rfl⟩
  | unary tag e, _, h, next => by
    simp only [reading?, Option.bind_eq_bind, Option.bind_eq_some_iff, Option.pure_def,
      Option.some.injEq] at h
    obtain ⟨op, hop, re, hre, rfl⟩ := h
    obtain ⟨t, ht, hmap, hleaves, hcalled⟩ := lowerFrom_reading e hre next
    refine ⟨.unary op t, ?_, ?_, hleaves, hcalled⟩
    · simp only [lowerFrom, unaryOp, hop, bind, Except.bind, ht]
      rfl
    · rw [KernelTerm.reading, Reading.map, hmap]
  | binary tag l r, _, h, next => by
    simp only [reading?, Option.bind_eq_bind, Option.bind_eq_some_iff, Option.pure_def,
      Option.some.injEq] at h
    obtain ⟨op, hop, rl, hrl, rr, hrr, rfl⟩ := h
    -- numbering goes on behind the leaves of the left operand
    obtain ⟨s, hs, hmap, hleaves, hcalled⟩ := lowerFrom_reading l hrl next
    obtain ⟨t, ht, hmap', hleaves', hcalled'⟩ := lowerFrom_reading r hrr (next + l.terminals.length)
    refine ⟨.binary op s t, ?_, ?_, ?_, ?_⟩
    · simp only [lowerFrom, binaryOp, hop, hs, bind, Except.bind, ht, terminals, List.length_append,
        Nat.add_assoc]
      rfl
    · rw [KernelTerm.reading, Reading.map, hmap, hmap']
    · rw [KernelTerm.reading, Reading.leaves, hleaves, hleaves', terminals, mentions_append]
    · rw [KernelTerm.reading, Reading.called, hcalled, hcalled', functions, List.map_append]
  | call g args, _, h, next => by
    simp only [reading?, Option.bind_eq_bind, Option.bind_eq_some_iff, Option.pure_def,
      Option.some.injEq] at h
    obtain ⟨rs, hrs, rfl⟩ := h
    obtain ⟨ts, hts, hmap, hleaves, hcalled⟩ := lowerArgsFrom_readings args hrs next
    refine ⟨.call g ts, ?_, ?_, hleaves, ?_⟩
    · simp only [lowerFrom, hts, bind, Except.bind]
      rfl
    · rw [KernelTerm.reading, Reading.map, hmap]
    · rw [KernelTerm.reading, Reading.called, hcalled, functions, List.map_cons]

theorem lowerArgsFrom_readings : (args : List (Formula ν)) → ∀ {rs : List (Reading ParameterKind)},
    readingsOfArgs? args = some rs →
    ∀ next, ∃ ts, lowerArgsFrom args next = .ok (ts, next + (terminalsOfArgs args).length) ∧
      Reading.mapArgs Mention.kind (KernelTerm.readings ts) = rs ∧
      Reading.leavesOfArgs (KernelTerm.readings ts) = mentions next (terminalsOfArgs args) ∧
      Reading.calledInArgs (KernelTerm.readings ts) = (functionsOfArgs args).map Function.name
  | [], _, h, next => by
    cases h
    exact ⟨[], rfl, rfl, rfl, rfl⟩
  | e :: rest, _, h, next => by
    simp only [readingsOfArgs?, Option.bind_eq_bind, Option.bind_eq_some_iff, Option.pure_def,
      Option.some.injEq] at h
    obtain ⟨re, hre, rs, hrs, rfl⟩ := h
    obtain ⟨t, ht, hmap, hleaves, hcalled⟩ := lowerFrom_reading e hre next
    obtain ⟨ts, hts, hmap', hleaves', hcalled'⟩ :=
      lowerArgsFrom_readings rest hrs (next + e.terminals.length)
    refine ⟨t :: ts, ?_, ?_, ?_, ?_⟩
    · simp only [lowerArgsFrom, ht, hts, bind, Except.bind, terminalsOfArgs, List.length_append,
        Nat.add_assoc]
      rfl
    · rw [KernelTerm.readings, Reading.mapArgs, hmap, hmap']
    · rw [KernelTerm.readings, Reading.leavesOfArgs, hleaves, hleaves', terminalsOfArgs,
        mentions_append]
    · rw [KernelTerm.readings, Reading.calledInArgs, hcalled, hcalled', functionsOfArgs,
        List.map_append]

end

mutual

/-- A formula that can be lowered has something to show. -/
theorem exists_reading_of_lowerFrom : (f : Formula ν) → ∀ {next : Nat} {p : KernelTerm × Nat},
    f.lowerFrom next = .ok p → ∃ r, f.reading? = some r
  | vector _, _, _, _ => ⟨_, rfl⟩
  | scalar _ _, _, _, _ => ⟨_, rfl⟩
  | unary tag e, next, p, h => by
    obtain ⟨op, hop, h⟩ := bind_eq_ok_iff.mp h
    obtain ⟨p', he, -⟩ := bind_eq_ok_iff.mp h
    obtain ⟨r, hr⟩ := exists_reading_of_lowerFrom e he
    rw [unaryOp] at hop
    cases htag : UnaryOp.ofTag? tag with
    | none => simp [htag] at hop
    | some op' => exact ⟨.unary op' r, by simp [reading?, htag, hr]⟩
  | binary tag l r, next, p, h => by
    obtain ⟨p', hl, h⟩ := bind_eq_ok_iff.mp h
    obtain ⟨p'', hr, h⟩ := bind_eq_ok_iff.mp h
    obtain ⟨op, hop, -⟩ := bind_eq_ok_iff.mp h
    obtain ⟨rl, hrl⟩ := exists_reading_of_lowerFrom l hl
    obtain ⟨rr, hrr⟩ := exists_reading_of_lowerFrom r hr
    rw [binaryOp] at hop
    cases htag : BinaryOp.ofTag? tag with
    | none => simp [htag] at hop
    | some op' => exact ⟨.binary op' rl rr, by simp [reading?, htag, hrl, hrr]⟩
  | call g args, next, p, h => by
    obtain ⟨p', hargs, -⟩ := bind_eq_ok_iff.mp h
    obtain ⟨rs, hrs⟩ := exists_readings_of_lowerArgsFrom args hargs
    exact ⟨.call g.name rs, by simp [reading?, hrs]⟩

theorem exists_readings_of_lowerArgsFrom : (args : List (Formula ν)) →
    ∀ {next : Nat} {p : List KernelTerm × Nat}, lowerArgsFrom args next = .ok p →
    ∃ rs, readingsOfArgs? args = some rs
  | [], _, _, _ => ⟨[], rfl⟩
  | e :: rest, next, p, h => by
    obtain ⟨p', he, h⟩ := bind_eq_ok_iff.mp h
    obtain ⟨p'', hrest, -⟩ := bind_eq_ok_iff.mp h
    obtain ⟨r, hr⟩ := exists_reading_of_lowerFrom e he
    obtain ⟨rs, hrs⟩ := exists_readings_of_lowerArgsFrom rest hrest
    exact ⟨r :: rs, by simp [readingsOfArgs?, hr, hrs]⟩

end

/-- Lowering succeeds exactly where there is something to show. -/
theorem exists_lower_iff {f : Formula ν} : (∃ t, f.lower = .ok t) ↔ ∃ r, f.reading? = some r := by
  constructor
  · rintro ⟨t, ht⟩
    obtain ⟨p, hp, -⟩ := map_eq_ok_iff.mp ht
    exact exists_reading_of_lowerFrom f hp
  · rintro ⟨r, hr⟩
    obtain ⟨t, ht, -⟩ := lowerFrom_reading f hr 1
    exact ⟨t, by rw [lower, ht]; rfl⟩

/-! ## Leaves by number -/

theorem getElem?_mentions {next k : Nat} {leaves : List (Terminal ν)} {leaf : Terminal ν}
    (hk : leaves[k]? = some leaf) :
    (mentions next leaves)[k]? = some ⟨leaf.kind, parameterName (next + k)⟩ := by
  rw [mentions, List.getElem?_map, List.getElem?_zipIdx, hk]
  rfl

/-- No two leaves are mentioned by one name. -/
theorem nodup_mentions (next : Nat) (leaves : List (Terminal ν)) :
    ((mentions next leaves).map Mention.name).Nodup := by
  have hnames : (mentions next leaves).map Mention.name =
      (List.range' next leaves.length).map parameterName := by
    rw [mentions, List.map_map, ← List.zipIdx_map_snd next leaves, List.map_map]
    rfl
  rw [hnames]
  have hrange : (List.range' next leaves.length).Nodup := List.nodup_range'
  exact hrange.map parameterName_injective

theorem getElem?_parametersFrom {first k : Nat} {leaves : List (Terminal DataType)}
    {leaf : Terminal DataType} (hk : leaves[k]? = some leaf) :
    (parametersFrom first leaves)[k]? = some ⟨parameterName (first + k), leaf.kind, leaf.type⟩ := by
  induction leaves generalizing first k with
  | nil => cases hk
  | cons t rest ih =>
    cases k with
    | zero =>
      obtain rfl := Option.some_inj.mp hk
      rfl
    | succ k =>
      rw [parametersFrom, List.getElem?_cons_succ, ih hk, Nat.add_assoc, Nat.add_comm 1 k]

/-- Behind the length and the target, a launch binds the leaves in their order. -/
theorem bindArguments_leaves {target : Descriptor} {device : Int}
    {leaves : List (Terminal Descriptor)} {args : List Argument}
    (h : Vector.bindArguments target device leaves = .ok args) :
    ∃ length result rest, args = length :: result :: rest ∧
      List.Forall₂ (fun leaf arg => Vector.leafArgument device leaf = .ok arg) leaves rest := by
  rw [Vector.bindArguments] at h
  split at h
  · split at h
    · cases h
    · obtain ⟨rest, hrest, h⟩ := bind_eq_ok_iff.mp h
      cases h
      exact ⟨_, _, rest, rfl, mapM_eq_ok_iff.mp hrest⟩
  · split at h <;> cases h
  · cases h

/-- A leaf with its number `k`, counted from 0: the text mentions its parameter once, by its kind,
the signature has the parameter with its type, and a launch binds the argument of the leaf to it,
behind the length and the target. -/
structure Placed (f : Formula ν) (r : Reading Mention) (k : Nat) (leaf : Terminal ν) : Prop where
  mention : r.leaves[k]? = some ⟨leaf.kind, parameterName (k + 1)⟩
  once : r.leaves.countP (·.name = parameterName (k + 1)) = 1
  parameter : ∀ typeOf : ν → DataType, (f.map typeOf).parameters[k]? =
    some ⟨parameterName (k + 1), leaf.kind, (leaf.map typeOf).type⟩
  argument : ∀ (describe : ν → Descriptor) (target : Descriptor) (device : Int)
    (args : List Argument),
    Vector.bindArguments target device (f.map describe).terminals = .ok args →
      ∃ arg, args[k + 2]? = some arg ∧ Vector.leafArgument device (leaf.map describe) = .ok arg

/-- The leaves in the text, in the signature and among the arguments are those of the formula. -/
structure Aligned (f : Formula ν) (r : Reading Mention) : Prop where
  mentions : r.leaves.length = f.terminals.length
  parameters : ∀ typeOf : ν → DataType, (f.map typeOf).parameters.length = f.terminals.length
  arguments : ∀ (describe : ν → Descriptor) (target : Descriptor) (device : Int)
    (args : List Argument),
    Vector.bindArguments target device (f.map describe).terminals = .ok args →
      args.length = f.terminals.length + 2
  placed : ∀ k leaf, f.terminals[k]? = some leaf → f.Placed r k leaf

theorem kind_map (g : ν → μ) (leaf : Terminal ν) : (leaf.map g).kind = leaf.kind := by
  cases leaf <;> rfl

theorem length_parametersFrom (first : Nat) (leaves : List (Terminal DataType)) :
    (parametersFrom first leaves).length = leaves.length := by
  induction leaves generalizing first with
  | nil => rfl
  | cons t rest ih => rw [parametersFrom, List.length_cons, ih, List.length_cons]

theorem aligned {f : Formula ν} {r : Reading Mention} (hr : r.leaves = mentions 1 f.terminals) :
    f.Aligned r where
  mentions := by rw [hr, Formula.mentions, List.length_map, List.length_zipIdx]
  parameters typeOf := by
    rw [Formula.parameters, length_parametersFrom, terminals_map, List.length_map]
  arguments describe target device args hargs := by
    obtain ⟨length, result, rest, rfl, hrest⟩ := bindArguments_leaves hargs
    rw [List.length_cons, List.length_cons, ← hrest.length_eq, terminals_map, List.length_map]
  placed k leaf hk := by
    have hname : r.leaves[k]? = some ⟨leaf.kind, parameterName (k + 1)⟩ := by
      rw [hr, getElem?_mentions hk, Nat.add_comm]
    refine ⟨hname, ?_, fun typeOf => ?_, fun describe target device args hargs => ?_⟩
    · -- names of parameters tell their numbers
      have hmem : parameterName (k + 1) ∈ r.leaves.map Mention.name :=
        List.mem_map_of_mem (List.mem_of_getElem? hname)
      have hcount := List.count_eq_one_of_mem (hr ▸ nodup_mentions 1 f.terminals) hmem
      rwa [List.count, List.countP_map] at hcount
    · have hleaf : (f.map typeOf).terminals[k]? = some (leaf.map typeOf) := by
        rw [terminals_map, List.getElem?_map, hk, Option.map_some]
      rw [Formula.parameters, getElem?_parametersFrom hleaf, kind_map, Nat.add_comm]
    · obtain ⟨length, result, rest, rfl, hrest⟩ := bindArguments_leaves hargs
      have hleaf : (f.map describe).terminals[k]? = some (leaf.map describe) := by
        rw [terminals_map, List.getElem?_map, hk, Option.map_some]
      exact getElem?_of_forall₂ hrest hleaf

/-- The names in the text of a term are identifiers if those of the user functions are. -/
theorem written_reading {f : Formula ν} {t : KernelTerm}
    (hleaves : t.reading.leaves = mentions 1 f.terminals)
    (hcalled : t.reading.called = f.functions.map Function.name)
    (hnames : ∀ g ∈ f.userCalls, isIdentifier g.name) : t.reading.Written where
  leaves m hm := by
    rw [hleaves, mentions, List.mem_map] at hm
    obtain ⟨p, -, rfl⟩ := hm
    exact isIdentifier_parameterName p.2
  called name hname := by
    rw [hcalled, List.mem_map] at hname
    obtain ⟨g, hg, rfl⟩ := hname
    cases g with
    | builtin b => exact b.isIdentifier_name
    | user u => exact hnames u (mem_userCalls f |>.mpr hg)

/-- A formula whose tags are operators of the right kinds has a term, whose text is read back to a
reading with the operators, functions and kinds of leaves of the formula. -/
theorem exists_read_render {f : Formula ν} {o : Reading ParameterKind} (ho : f.reading? = some o)
    (hnames : ∀ g ∈ f.userCalls, isIdentifier g.name) :
    ∃ t, f.lower = .ok t ∧ Reading.read t.render = some t.reading ∧ t.reading.map Mention.kind = o ∧
      t.reading.leaves = mentions 1 f.terminals ∧
      t.reading.called = f.functions.map Function.name := by
  obtain ⟨t, ht, hmap, hleaves, hcalled⟩ := lowerFrom_reading f ho 1
  have hread := Reading.read_chars (written_reading hleaves hcalled hnames) t.toList_render
  exact ⟨t, by rw [lower, ht]; rfl, hread, hmap, hleaves, hcalled⟩

/-- The text of a kernel denotes the expression it is made for. For every expression without
products whose tags are operators of the right kinds, the line that stores the result can be read
back: operators, functions with their arguments and the kinds of the leaves are those of the
expression, so that expressions with one text have one structure. Text, signature and arguments
agree on the leaves. -/
theorem read_render {e : Expr ν} {f : Formula ν} {o : Reading ParameterKind}
    (he : e.formula = .ok f) (ho : f.reading? = some o)
    (hnames : ∀ g ∈ f.userCalls, isIdentifier g.name) :
    ∃ t r, f.lower = .ok t ∧ Reading.read t.render = some r ∧ r.map Mention.kind = o ∧ f.Aligned r ∧
      (∀ (μ : Type) (f' : Formula μ) (o' : Reading ParameterKind), f'.reading? = some o' →
        (∀ g ∈ f'.userCalls, isIdentifier g.name) → f'.lower.map KernelTerm.render = .ok t.render →
          o' = o) ∧
      ∀ (typeOf : ν → DataType) (result : DataType) (source : KernelSource),
        KernelSource.generate typeOf e result = .ok source →
          source.parameters = (f.map typeOf).parameters ∧ ∃ declarations signature, source.text =
            "\n".intercalate (KernelSource.lines declarations source.name signature t.render) ++
              "\n" := by
  obtain ⟨t, ht, hread, hmap, hleaves, -⟩ := exists_read_render ho hnames
  refine ⟨t, t.reading, ht, hread, hmap, aligned hleaves, fun μ f' o' ho' hnames' htext => ?_,
    fun typeOf result source hsource => ?_⟩
  · -- one text has one reading
    obtain ⟨t', ht', hread', hmap', -⟩ := exists_read_render ho' hnames'
    rw [ht'] at htext
    rw [Except.ok.inj htext, hread, Option.some_inj] at hread'
    rw [← hmap', ← hread', hmap]
  · have hsource : KernelSource.ofFormula (f.map typeOf) result = .ok source := by
      rwa [KernelSource.generate, he] at hsource
    obtain ⟨signature, -, hsource⟩ := bind_eq_ok_iff.mp hsource
    obtain ⟨t', ht', hsource⟩ := bind_eq_ok_iff.mp hsource
    -- types of vectors are in the signature only
    have hsame : (f.map typeOf).lower = f.lower := by rw [lower, lower, lowerFrom_map]
    rw [hsame, ht] at ht'
    cases ht'
    cases hsource
    exact ⟨rfl, _, _, rfl⟩

/-- A difference of a negated vector and a call of a user function. -/
theorem read_render_difference :
    let scale : UserFunction :=
  ⟨"scale", .float64, [("x", .int64), ("y", .float64)], "return x * y;"⟩
    let f : Formula Nat := .binary "sub" (.unary "neg" (.vector 7))
      (.call (.user scale) [.scalar (.int 2) (.element .int64), .vector 8])
    let o : Reading ParameterKind := .binary .sub (.unary .neg (.leaf .vector))
      (.call "scale" [.leaf .scalar, .leaf .vector])
    f.toExpr.formula = .ok f ∧ f.reading? = some o ∧ (∀ g ∈ f.userCalls, isIdentifier g.name) ∧
      ∃ t r, f.lower = .ok t ∧ t.render = "((-prm_1[idx]) - scale(prm_2, prm_3[idx]))" ∧
        Reading.read t.render = some r ∧ r.map Mention.kind = o ∧ f.Aligned r := by
  intro scale f o
  have he : f.toExpr.formula = .ok f := rfl
  have ho : f.reading? = some o := rfl
  have hnames : ∀ g ∈ f.userCalls, isIdentifier g.name := by decide +kernel
  obtain ⟨t, r, ht, hread, hmap, haligned, -⟩ := read_render he ho hnames
  have htext : f.lower.map KernelTerm.render = .ok "((-prm_1[idx]) - scale(prm_2, prm_3[idx]))" :=
    rfl
  rw [ht] at htext
  exact ⟨he, ho, hnames, t, r, ht, Except.ok.inj htext, hread, hmap, haligned⟩

end Formula

end DistributedVector
