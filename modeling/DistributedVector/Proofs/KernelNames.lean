import DistributedVector.Proofs.KeyText
import DistributedVector.Proofs.ShapeSource

/-!
# Kernel names tell shapes

A readable name spells out a formula in prefix order. Its parts have no underscore, so they can be
told apart where they are joined; each part stands for one operator, function or leaf type, and
these say how many operands follow, so the parts of a well-formed formula without user functions
determine its shape. A digest has no underscore, while a readable name has one behind the result
type, so the two never meet. Digests are as good as the keys they are made from, as long as the
keys that are hashed do not collide.

## Main definitions

* `Symbol` — what a part of a readable name stands for
* `Formula.IsHashed` — the name of a formula is made from a digest
* `KernelShape.DigestsApart` — the digests of two shapes do not collide
* `IsKernelName` — the form of all kernel names

## Main results

* `Formula.tokens_append_injective` — the parts of a name determine the shape and where it ends
* `Formula.kernelName_inj` — well-formed formulas with one kernel name have one shape
* `KernelSource.generate_iff` — same shape, same name and same kernel are one relation
-/

namespace DistributedVector

/-- What a part of a readable name stands for. -/
inductive Symbol
  | vector (t : ElementType)
  | scalar (t : ElementType)
  | unary (op : UnaryOp)
  | binary (op : BinaryOp)
  | call (b : Builtin)
  deriving DecidableEq

namespace Symbol

/-- The part of a name that is written for a symbol. -/
def text : Symbol → String
  | vector t => "v" ++ t.token
  | scalar t => "s" ++ t.token
  | unary op => op.tag
  | binary op => op.tag
  | call b => b.name

/-- Every symbol. -/
def all : List Symbol :=
  ElementType.all.map vector ++ ElementType.all.map scalar ++ UnaryOp.all.map unary ++
    BinaryOp.all.map binary ++ Builtin.all.map call

theorem mem_all (s : Symbol) : s ∈ all := by
  cases s with
  | vector t => cases t <;> decide
  | scalar t => cases t <;> decide
  | unary op => cases op <;> decide
  | binary op => cases op <;> decide
  | call b => cases b <;> decide

theorem nodup_texts : (all.map text).Nodup := by decide +kernel

theorem text_injective {s t : Symbol} (h : s.text = t.text) : s = t :=
  List.inj_on_of_nodup_map nodup_texts (mem_all s) (mem_all t) h

theorem alphanumeric (s : Symbol) : s.text.toList.all Char.isAlphanum := by
  have hall : all.all fun s => s.text.toList.all Char.isAlphanum := by decide +kernel
  exact List.all_eq_true.mp hall s (mem_all s)

end Symbol

theorem ElementType.alphanumeric (t : ElementType) : t.token.toList.all Char.isAlphanum := by
  cases t <;> decide +kernel

theorem ne_underscore {c : Char} (h : c.isAlphanum) : c ≠ '_' := by
  rintro rfl
  exact absurd h (by decide)

namespace Formula

theorem eq_builtin_of_user?_eq {g : Function} (h : g.user?.toList = []) : ∃ b, g = .builtin b := by
  cases g with
  | builtin b => exact ⟨b, rfl⟩
  | user f => cases h

mutual

/-- The parts of the name of a formula without user functions are symbols, if the tags name
operators and devices support the types. -/
theorem exists_symbol : (f : Formula DataType) → ∀ {n : Nat} {p : KernelTerm × Nat},
    f.lowerFrom n = .ok p → (∀ t ∈ f.terminals, t.type.isSupported) → f.userCalls = [] →
    ∀ t ∈ f.tokens, ∃ s : Symbol, t = s.text
  | .vector t, _, _, _, hf, _, x, hx => by
    obtain ⟨e, he⟩ := DataType.isSupported_iff.mp (hf _ List.mem_cons_self)
    obtain rfl : t = .element e := he
    exact ⟨.vector e, List.mem_singleton.mp hx⟩
  | .scalar _ t, _, _, _, hf, _, x, hx => by
    obtain ⟨e, he⟩ := DataType.isSupported_iff.mp (hf _ List.mem_cons_self)
    obtain rfl : t = .element e := he
    exact ⟨.scalar e, List.mem_singleton.mp hx⟩
  | .unary tag e, _, _, h, hf, hu, x, hx => by
    obtain ⟨op, hop, h⟩ := bind_eq_ok_iff.mp h
    obtain ⟨q, he, -⟩ := bind_eq_ok_iff.mp h
    rcases List.mem_cons.mp hx with rfl | hx
    · exact ⟨.unary op, UnaryOp.tag_of_unaryOp hop⟩
    · exact exists_symbol e he hf hu x hx
  | .binary tag l r, _, _, h, hf, hu, x, hx => by
    obtain ⟨q, hl, h⟩ := bind_eq_ok_iff.mp h
    obtain ⟨q', hr, h⟩ := bind_eq_ok_iff.mp h
    obtain ⟨op, hop, -⟩ := bind_eq_ok_iff.mp h
    obtain ⟨hul, hur⟩ := List.append_eq_nil_iff.mp hu
    obtain ⟨hfl, hfr⟩ := List.forall_mem_append.mp hf
    rcases List.mem_cons.mp hx with rfl | hx
    · exact ⟨.binary op, BinaryOp.tag_of_binaryOp hop⟩
    · rcases List.mem_append.mp hx with hx | hx
      · exact exists_symbol l hl hfl hul x hx
      · exact exists_symbol r hr hfr hur x hx
  | .call g args, _, _, h, hf, hu, x, hx => by
    obtain ⟨q, hargs, -⟩ := bind_eq_ok_iff.mp h
    obtain ⟨huargs, hug⟩ := List.append_eq_nil_iff.mp hu
    obtain ⟨b, rfl⟩ := eq_builtin_of_user?_eq hug
    rcases List.mem_cons.mp hx with rfl | hx
    · exact ⟨.call b, rfl⟩
    · exact exists_symbol_of_args args hargs hf huargs x hx

theorem exists_symbol_of_args : (args : List (Formula DataType)) →
    ∀ {n : Nat} {p : List KernelTerm × Nat}, lowerArgsFrom args n = .ok p →
    (∀ t ∈ terminalsOfArgs args, t.type.isSupported) → userCallsOfArgs args = [] →
    ∀ t ∈ tokensOfArgs args, ∃ s : Symbol, t = s.text
  | [], _, _, _, _, _, _, hx => absurd hx List.not_mem_nil
  | e :: rest, _, _, h, hf, hu, x, hx => by
    obtain ⟨q, he, h⟩ := bind_eq_ok_iff.mp h
    obtain ⟨q', hrest, -⟩ := bind_eq_ok_iff.mp h
    obtain ⟨hue, hurest⟩ := List.append_eq_nil_iff.mp hu
    obtain ⟨hfe, hfrest⟩ := List.forall_mem_append.mp hf
    rcases List.mem_append.mp hx with hx | hx
    · exact exists_symbol e he hfe hue x hx
    · exact exists_symbol_of_args rest hrest hfrest hurest x hx

end

/-- A formula that starts with a symbol, with what follows of its parts. -/
def StartsWith (s : Symbol) (u : List String) (f : Formula DataType) (v : List String) : Prop :=
  match s with
  | .vector t => f = vector (.element t) ∧ u = v
  | .scalar t => ∃ x, f = scalar x (.element t) ∧ u = v
  | .unary op => ∃ e, f = unary op.tag e ∧ u = e.tokens ++ v
  | .binary op => ∃ l r, f = binary op.tag l r ∧ u = l.tokens ++ (r.tokens ++ v)
  | .call b => ∃ args, f = call (.builtin b) args ∧ u = tokensOfArgs args ++ v

/-- The first part of a name tells the operator, function or leaf at the root. -/
theorem startsWith_of_eq {f : Formula DataType} (hf : f.isWellFormed) (hu : f.userCalls = [])
    {s : Symbol} {u v : List String} (h : s.text :: u = f.tokens ++ v) : StartsWith s u f v := by
  -- the tokens of a formula begin with the text of a symbol, and no two symbols have one text
  cases f with
  | vector t =>
    obtain ⟨e, rfl⟩ := DataType.isSupported_iff.mp hf
    obtain ⟨hs, hrest⟩ := List.cons.inj h
    obtain rfl : s = .vector e := Symbol.text_injective hs
    exact ⟨rfl, hrest⟩
  | scalar x t =>
    obtain ⟨e, rfl⟩ := DataType.isSupported_iff.mp hf
    obtain ⟨hs, hrest⟩ := List.cons.inj h
    obtain rfl : s = .scalar e := Symbol.text_injective hs
    exact ⟨x, rfl, hrest⟩
  | unary tag e =>
    obtain ⟨⟨op, rfl⟩, -⟩ := isWellFormed_unary_iff.mp hf
    obtain ⟨hs, hrest⟩ := List.cons.inj h
    obtain rfl : s = .unary op := Symbol.text_injective hs
    exact ⟨e, rfl, hrest⟩
  | binary tag l r =>
    obtain ⟨⟨op, rfl⟩, -⟩ := isWellFormed_binary_iff.mp hf
    obtain ⟨hs, hrest⟩ := List.cons.inj h
    obtain rfl : s = .binary op := Symbol.text_injective hs
    exact ⟨l, r, rfl, hrest.trans (List.append_assoc _ _ _)⟩
  | call g args =>
    obtain ⟨b, rfl⟩ := eq_builtin_of_user?_eq (List.append_eq_nil_iff.mp hu).2
    obtain ⟨hs, hrest⟩ := List.cons.inj h
    obtain rfl : s = .call b := Symbol.text_injective hs
    exact ⟨args, rfl, hrest⟩

mutual

/-- The parts of a name determine the shape and where its parts end. The induction is on the first
formula; the first part tells the root of the second one, and with it the operands that follow. -/
theorem tokens_append_injective : (f g : Formula DataType) → f.isWellFormed → g.isWellFormed →
    f.userCalls = [] → g.userCalls = [] → ∀ {u v}, f.tokens ++ u = g.tokens ++ v →
    f.shape = g.shape ∧ u = v
  | .vector t, g, hf, hg, _, hug, u, v, h => by
    obtain ⟨e, rfl⟩ := DataType.isSupported_iff.mp hf
    obtain ⟨rfl, rfl⟩ := startsWith_of_eq hg hug (s := .vector e) h
    exact ⟨rfl, rfl⟩
  | .scalar x t, g, hf, hg, _, hug, u, v, h => by
    obtain ⟨e, rfl⟩ := DataType.isSupported_iff.mp hf
    obtain ⟨y, rfl, rfl⟩ := startsWith_of_eq hg hug (s := .scalar e) h
    exact ⟨rfl, rfl⟩
  | .unary tag e, g, hf, hg, huf, hug, u, v, h => by
    obtain ⟨⟨op, rfl⟩, he⟩ := isWellFormed_unary_iff.mp hf
    obtain ⟨e', rfl, hrest⟩ := startsWith_of_eq hg hug (s := .unary op) h
    have he' := (isWellFormed_unary_iff.mp hg).2
    obtain ⟨hshape, rfl⟩ := tokens_append_injective e e' he he' huf hug hrest
    exact ⟨by rw [shape, shape, hshape], rfl⟩
  | .binary tag l r, g, hf, hg, huf, hug, u, v, h => by
    obtain ⟨⟨op, rfl⟩, hl, hr⟩ := isWellFormed_binary_iff.mp hf
    rw [tokens, List.cons_append, List.append_assoc] at h
    -- what follows the left operand starts with the right one
    obtain ⟨l', r', rfl, hrest⟩ := startsWith_of_eq hg hug (s := .binary op) h
    obtain ⟨-, hl', hr'⟩ := isWellFormed_binary_iff.mp hg
    obtain ⟨hul, hur⟩ := List.append_eq_nil_iff.mp huf
    obtain ⟨hul', hur'⟩ := List.append_eq_nil_iff.mp hug
    obtain ⟨hleft, hrest⟩ := tokens_append_injective l l' hl hl' hul hul' hrest
    obtain ⟨hright, rfl⟩ := tokens_append_injective r r' hr hr' hur hur' hrest
    exact ⟨by rw [shape, shape, hleft, hright], rfl⟩
  | .call f args, g, hf, hg, huf, hug, u, v, h => by
    obtain ⟨huargs, huf⟩ := List.append_eq_nil_iff.mp huf
    obtain ⟨b, rfl⟩ := eq_builtin_of_user?_eq huf
    obtain ⟨args', rfl, hrest⟩ := startsWith_of_eq hg hug (s := .call b) h
    obtain ⟨hlength, hargs⟩ := isWellFormed_call_iff.mp hf
    obtain ⟨hlength', hargs'⟩ := isWellFormed_call_iff.mp hg
    obtain ⟨hshapes, rfl⟩ := tokensOfArgs_append_injective args args'
      (hlength.trans hlength'.symm) hargs hargs' huargs (List.append_eq_nil_iff.mp hug).1 hrest
    exact ⟨by rw [shape, shape, hshapes], rfl⟩

theorem tokensOfArgs_append_injective : (as bs : List (Formula DataType)) →
    as.length = bs.length → areWellFormed as → areWellFormed bs → userCallsOfArgs as = [] →
    userCallsOfArgs bs = [] → ∀ {u v}, tokensOfArgs as ++ u = tokensOfArgs bs ++ v →
    shapes as = shapes bs ∧ u = v
  | [], [], _, _, _, _, _, _, _, h => ⟨rfl, h⟩
  | a :: as, b :: bs, hlength, has, hbs, huas, hubs, u, v, h => by
    obtain ⟨ha, has⟩ := areWellFormed_cons_iff.mp has
    obtain ⟨hb, hbs⟩ := areWellFormed_cons_iff.mp hbs
    obtain ⟨hua, huas⟩ := List.append_eq_nil_iff.mp huas
    obtain ⟨hub, hubs⟩ := List.append_eq_nil_iff.mp hubs
    rw [tokensOfArgs, tokensOfArgs, List.append_assoc, List.append_assoc] at h
    obtain ⟨hfirst, hrest⟩ := tokens_append_injective a b ha hb hua hub h
    obtain ⟨hothers, rfl⟩ := tokensOfArgs_append_injective as bs (Nat.succ.inj hlength) has hbs
      huas hubs hrest
    exact ⟨by rw [shapes, shapes, hfirst, hothers], rfl⟩

end

end Formula

/-! ## Parts and their joins -/

theorem mem_intercalate {c : Char} {ls : List (List Char)} (h : c ∈ ['_'].intercalate ls) :
    c = '_' ∨ ∃ l ∈ ls, c ∈ l := by
  induction ls with
  | nil => simp at h
  | cons l ls ih =>
    cases ls with
    | nil =>
      rw [List.intercalate_singleton] at h
      exact .inr ⟨l, List.mem_cons_self, h⟩
    | cons l' ls =>
      rw [List.intercalate_cons_cons, List.append_assoc, List.mem_append] at h
      rcases h with h | h
      · exact .inr ⟨l, List.mem_cons_self, h⟩
      · rcases List.mem_cons.mp h with rfl | h
        · exact .inl rfl
        · exact (ih h).imp_right fun ⟨k, hk, hc⟩ => ⟨k, List.mem_cons_of_mem _ hk, hc⟩

/-- Parts without underscores can be told apart where underscores join them. -/
theorem intercalate_injective {xs ys : List String} (hxs : ∀ x ∈ xs, '_' ∉ x.toList)
    (hys : ∀ y ∈ ys, '_' ∉ y.toList) (hx : xs ≠ []) (hy : ys ≠ [])
    (h : "_".intercalate xs = "_".intercalate ys) : xs = ys := by
  -- splitting at underscores undoes the join
  have hsplit : ∀ zs : List String, (∀ z ∈ zs, '_' ∉ z.toList) → zs ≠ [] →
      ("_".intercalate zs).toList.splitOn '_' = zs.map String.toList := by
    intro zs hzs hz
    rw [String.toList_intercalate]
    exact List.splitOn_intercalate '_' (by simpa using hzs) (by simpa using hz)
  have hlists : xs.map String.toList = ys.map String.toList := by
    rw [← hsplit xs hxs hx, ← hsplit ys hys hy, h]
  exact List.map_injective_iff.mpr (fun a b => String.toList_inj.mp) hlists

theorem Digest.alphanumeric_md5Chars (message : List UInt8) :
    ∀ c ∈ md5Chars message, c.isAlphanum := by
  have hdigit : ∀ d : Fin 16, (Nat.digitChar d).isAlphanum := by decide +kernel
  intro c hc
  simp only [md5Chars, List.mem_flatMap, hexByte, List.mem_cons, List.not_mem_nil, or_false] at hc
  obtain ⟨w, -, b, -, rfl | rfl⟩ := hc
  · exact hdigit ⟨b.toNat / 16, by have := b.toNat_lt; omega⟩
  · exact hdigit ⟨b.toNat % 16, Nat.mod_lt _ (by decide)⟩

/-- The part of the digest of a shape that goes into a name. -/
def KernelShape.digest (s : KernelShape) : List Char :=
  (Digest.md5 s.key.render).toList.take 16

theorem KernelShape.alphanumeric_digest (s : KernelShape) : ∀ c ∈ s.digest, c.isAlphanum := by
  intro c hc
  have hc := List.mem_of_mem_take hc
  rw [Digest.md5, String.toList_ofList] at hc
  exact Digest.alphanumeric_md5Chars _ c hc

/-- The texts of two shapes do not collide: equal digests come from equal texts. -/
def KernelShape.DigestsApart (s t : KernelShape) : Prop :=
  s.digest = t.digest → s.key.render = t.key.render

theorem KernelShape.DigestsApart.eq {s t : KernelShape} (h : s.DigestsApart t)
    (hdigest : s.digest = t.digest) : s = t :=
  KernelShape.key_injective (Key.render_injective (h hdigest))

/-! ## Names -/

/-- The form of all kernel names: the prefix, then letters, digits and underscores. -/
structure IsKernelName (name : String) : Prop where
  spelled : ∃ s : String, name = kernelPrefix ++ s ∧ ∀ c ∈ s.toList, c.isAlphanum ∨ c = '_'
  short : name.length ≤ 48

namespace Formula

/-- The name of the formula's kernel is made from a digest. -/
def IsHashed (f : Formula DataType) (result : Option DataType) : Prop :=
  maxReadableName < (f.readableName result).length ∨ f.userFunctions ≠ []

variable {f g : Formula DataType}

theorem kernelName_of_isHashed {result : Option DataType} (h : f.IsHashed result) :
    f.kernelName result = kernelPrefix ++ String.ofList (f.kernelShape result).digest := by
  rw [kernelName, if_pos (by simpa [IsHashed] using h)]
  rfl

theorem kernelName_of_not_isHashed {result : Option DataType} (h : ¬f.IsHashed result) :
    f.kernelName result = f.readableName result := by
  rw [kernelName, if_neg (by simpa [IsHashed] using h)]

theorem userCalls_eq_nil_of_not_isHashed {result : Option DataType} (h : ¬f.IsHashed result) :
    f.userCalls = [] := by
  have hfunctions : f.userFunctions = [] := not_not.mp (not_or.mp h).2
  rw [userFunctions] at hfunctions
  cases hcalls : f.userCalls with
  | nil => rfl
  | cons c rest => simp [hcalls, distinct] at hfunctions

theorem tokens_ne_nil (f : Formula DataType) : f.tokens ≠ [] := by
  cases f <;> simp [tokens]

/-- The parts of a readable name, the type of the result first, are letters and digits. -/
theorem alphanumeric_parts {r : ElementType} {p : KernelTerm × Nat} (hp : f.lowerFrom 1 = .ok p)
    (hf : ∀ t ∈ f.terminals, t.type.isSupported) (hu : f.userCalls = []) :
    ∀ t ∈ r.token :: f.tokens, ∀ c ∈ t.toList, c.isAlphanum := by
  intro t ht
  rcases List.mem_cons.mp ht with rfl | ht
  · exact List.all_eq_true.mp r.alphanumeric
  · obtain ⟨s, rfl⟩ := f.exists_symbol hp hf hu t ht
    exact List.all_eq_true.mp s.alphanumeric

theorem underscore_not_mem_parts {r : ElementType} (hf : f.isWellFormed) (hu : f.userCalls = []) :
    ∀ t ∈ r.token :: f.tokens, '_' ∉ t.toList := by
  obtain ⟨p, hp⟩ := f.exists_lowerFrom hf 1
  exact fun t ht hc =>
    ne_underscore (alphanumeric_parts hp (f.supported_of_mem_terminals hf) hu t ht _ hc) rfl

/-- A readable name has an underscore behind the type of the result. -/
theorem underscore_mem_joined (r : ElementType) (f : Formula DataType) :
    '_' ∈ ("_".intercalate (r.token :: f.tokens)).toList := by
  obtain ⟨t, rest, h⟩ := List.exists_cons_of_ne_nil f.tokens_ne_nil
  rw [h, String.toList_intercalate, List.map_cons, List.map_cons, List.intercalate_cons_cons]
  exact List.mem_append_left _ (List.mem_append_right _ (by decide))

/-- The form of the name of a kernel that can be generated. -/
theorem isKernelName_kernelName {p : KernelTerm × Nat} (hp : f.lowerFrom 1 = .ok p)
    (hf : ∀ t ∈ f.terminals, t.type.isSupported) (r : ElementType) :
    IsKernelName (f.kernelName (some (.element r))) := by
  by_cases h : f.IsHashed (some (.element r))
  · rw [kernelName_of_isHashed h]
    constructor
    · refine ⟨_, rfl, fun c hc => .inl ?_⟩
      rw [String.toList_ofList] at hc
      exact KernelShape.alphanumeric_digest _ c hc
    -- seven characters, and sixteen digits at most
    · have hprefix : kernelPrefix.length = 7 := by decide
      have hdigest : ((f.kernelShape (some (.element r))).digest).length ≤ 16 :=
        List.length_take_le 16 _
      rw [String.length_append, String.length_ofList, hprefix]
      omega
  · rw [kernelName_of_not_isHashed h]
    constructor
    · refine ⟨_, rfl, fun c hc => ?_⟩
      rw [String.toList_intercalate] at hc
      rcases mem_intercalate hc with rfl | ⟨l, hl, hcl⟩
      · exact .inr rfl
      · obtain ⟨t, ht, rfl⟩ := List.mem_map.mp hl
        exact .inl (alphanumeric_parts hp hf (userCalls_eq_nil_of_not_isHashed h) t ht c hcl)
    · exact Nat.le_of_not_lt (not_or.mp h).1

theorem isKernelName_of_isWellFormed (hf : f.isWellFormed) (r : ElementType) :
    IsKernelName (f.kernelName (some (.element r))) := by
  obtain ⟨p, hp⟩ := f.exists_lowerFrom hf 1
  exact isKernelName_kernelName hp (f.supported_of_mem_terminals hf) r

/-- A digest is no readable name. -/
theorem digestName_ne_readableName (f g : Formula DataType) (result : Option DataType)
    (t : ElementType) : kernelPrefix ++ String.ofList (f.kernelShape result).digest ≠
      g.readableName (some (.element t)) := by
  intro h
  have hjoined := (String.append_right_inj kernelPrefix).mp h
  -- the digest would have the underscore behind the type of the result
  have hmem := underscore_mem_joined t g
  rw [← show _ = "_".intercalate (t.token :: g.tokens) from hjoined, String.toList_ofList] at hmem
  exact ne_underscore (KernelShape.alphanumeric_digest _ _ hmem) rfl

/-- Readable names spell shapes. -/
theorem readableName_inj {r t : ElementType} (hf : f.isWellFormed) (hg : g.isWellFormed)
    (huf : f.userCalls = []) (hug : g.userCalls = [])
    (h : f.readableName (some (.element r)) = g.readableName (some (.element t))) :
    r = t ∧ f.shape = g.shape := by
  have hjoined := (String.append_right_inj kernelPrefix).mp h
  have hparts := intercalate_injective (underscore_not_mem_parts hf huf)
    (underscore_not_mem_parts hg hug) (List.cons_ne_nil _ _) (List.cons_ne_nil _ _) hjoined
  obtain ⟨hresult, htokens⟩ := List.cons.inj hparts
  apply And.intro (ElementType.token_injective hresult)
  exact (tokens_append_injective f g hf hg huf hug (congrArg (· ++ []) htokens)).1

/-- The texts that are hashed for two kernel names do not collide, if both names are digests. -/
def NamesApart (f : Formula DataType) (r : Option DataType) (g : Formula DataType)
    (t : Option DataType) : Prop :=
  f.IsHashed r → g.IsHashed t → (f.kernelShape r).DigestsApart (g.kernelShape t)

/-- Well-formed formulas with one kernel name have one shape, unless digests collide. -/
theorem kernelName_inj {r t : ElementType} (hf : f.isWellFormed) (hg : g.isWellFormed)
    (hapart : f.NamesApart (some (.element r)) g (some (.element t)))
    (h : f.kernelName (some (.element r)) = g.kernelName (some (.element t))) :
    f.kernelShape (some (.element r)) = g.kernelShape (some (.element t)) := by
  -- both names are digests, or both are readable
  by_cases hhf : f.IsHashed (some (.element r))
  · rw [kernelName_of_isHashed hhf] at h
    by_cases hhg : g.IsHashed (some (.element t))
    · rw [kernelName_of_isHashed hhg] at h
      have hdigest := String.ofList_inj.mp ((String.append_right_inj kernelPrefix).mp h)
      exact (hapart hhf hhg).eq hdigest
    · rw [kernelName_of_not_isHashed hhg] at h
      exact absurd h (digestName_ne_readableName f g _ t)
  · rw [kernelName_of_not_isHashed hhf] at h
    by_cases hhg : g.IsHashed (some (.element t))
    · rw [kernelName_of_isHashed hhg] at h
      exact absurd h.symm (digestName_ne_readableName g f _ r)
    · rw [kernelName_of_not_isHashed hhg] at h
      obtain ⟨rfl, hshape⟩ := readableName_inj hf hg (userCalls_eq_nil_of_not_isHashed hhf)
        (userCalls_eq_nil_of_not_isHashed hhg) h
      exact kernelShape_congr hshape _

end Formula

namespace KernelSource

/-- A generated kernel has the name of its formula. -/
theorem name_of_ofFormula {f : Formula DataType} {result : DataType} {source : KernelSource}
    (h : ofFormula f result = .ok source) : source.name = f.kernelName (some result) := by
  obtain ⟨signature, -, h⟩ := bind_eq_ok_iff.mp h
  obtain ⟨term, -, h⟩ := bind_eq_ok_iff.mp h
  cases h
  rfl

theorem generate_eq_ok {ν : Type} {typeOf : ν → DataType} {e : Expr ν} {f : Formula DataType}
    {result : DataType} {source : KernelSource} (he : e.formula.map (Formula.map typeOf) = .ok f)
    (h : ofFormula f result = .ok source) : generate typeOf e result = .ok source := by
  obtain ⟨g, hg, rfl⟩ := map_eq_ok_iff.mp he
  rw [generate, hg]
  exact h

/-- Same shape, same name and same kernel are one relation between well-formed expressions without
products: the keys of the shapes are equal, the names of the kernels are, and the kernels agree in
name, text, parameters and result type. -/
theorem generate_iff {ν μ : Type} {typeOf : ν → DataType} {typeOf' : μ → DataType} {e : Expr ν}
    {e' : Expr μ} {f f' : Formula DataType} {r r' : ElementType}
    (he : e.formula.map (Formula.map typeOf) = .ok f)
    (he' : e'.formula.map (Formula.map typeOf') = .ok f')
    (hf : f.isWellFormed) (hf' : f'.isWellFormed)
    (hapart : f.NamesApart (some (.element r)) f' (some (.element r'))) :
    ∃ source source',
      generate typeOf e (.element r) = .ok source ∧
      generate typeOf' e' (.element r') = .ok source' ∧
      ((f.kernelShape (some (.element r))).key = (f'.kernelShape (some (.element r'))).key ↔
        f.kernelName (some (.element r)) = f'.kernelName (some (.element r'))) ∧
      (f.kernelName (some (.element r)) = f'.kernelName (some (.element r')) ↔
        source.name = source'.name ∧ source.text = source'.text ∧
          source.parameters = source'.parameters ∧ source.result = source'.result) ∧
      IsKernelName (f.kernelName (some (.element r))) ∧
      IsKernelName (f'.kernelName (some (.element r'))) := by
  obtain ⟨source, hsource⟩ := exists_ofFormula hf r
  obtain ⟨source', hsource'⟩ := exists_ofFormula hf' r'
  have hinj := Formula.kernelName_inj hf hf' hapart
  have hshape : (f.kernelShape (some (.element r))).key =
    (f'.kernelShape (some (.element r'))).key →
      (.element r : DataType) = .element r' ∧ f.shape = f'.shape := by
    intro hkey
    have h := Formula.kernelShape_inj (by simp) (by simp) (KernelShape.key_injective hkey)
    exact h.imp_left (Option.some.inj ·)
  have hkey : (f.kernelShape (some (.element r))).key = (f'.kernelShape (some (.element r'))).key ↔
      f.kernelName (some (.element r)) = f'.kernelName (some (.element r')) := by
    constructor
    · intro hkey
      obtain ⟨hresult, hbody⟩ := hshape hkey
      rw [hresult]
      exact Formula.kernelName_congr hbody _
    · intro hname
      exact congrArg _ (hinj hname)
  have hkernel : f.kernelName (some (.element r)) = f'.kernelName (some (.element r')) ↔
      source.name = source'.name ∧ source.text = source'.text ∧
        source.parameters = source'.parameters ∧ source.result = source'.result := by
    constructor
    · intro hname
      -- one shape has one kernel, so the two sources are the same altogether
      obtain ⟨hresult, hbody⟩ := hshape (hkey.mpr hname)
      rw [hresult, ofFormula_congr (f.supported_of_mem_terminals hf)
        (f'.supported_of_mem_terminals hf') hbody,
        hsource'] at hsource
      cases hsource
      exact ⟨rfl, rfl, rfl, rfl⟩
    · intro h
      rw [← name_of_ofFormula hsource, ← name_of_ofFormula hsource', h.1]
  exact ⟨source, source', generate_eq_ok he hsource, generate_eq_ok he' hsource', hkey, hkernel,
    Formula.isKernelName_of_isWellFormed hf r, Formula.isKernelName_of_isWellFormed hf' r'⟩

/-- Functions that differ in their bodies only have kernels of different names. -/
theorem generate_iff_bodies :
    let double : UserFunction := ⟨"scale", .float64, [("x", .float64)], "return 2 * x;"⟩
    let triple : UserFunction := ⟨"scale", .float64, [("x", .float64)], "return 3 * x;"⟩
    let f : Formula DataType := .call (.user double) [.vector (.element .float64)]
    let f' : Formula DataType := .call (.user triple) [.vector (.element .float64)]
    f.isWellFormed ∧ f'.isWellFormed ∧
      f.NamesApart (some (.element .float64)) f' (some (.element .float64)) ∧
      f.kernelName (some (.element .float64)) ≠ f'.kernelName (some (.element .float64)) := by
  intro double triple f f'
  have hf : f.isWellFormed := by decide
  have hf' : f'.isWellFormed := by decide
  have hdigest : (f.kernelShape (some (.element .float64))).digest ≠
      (f'.kernelShape (some (.element .float64))).digest := by decide +kernel
  have hapart : f.NamesApart (some (.element .float64)) f' (some (.element .float64)) :=
    fun _ _ h => absurd h hdigest
  obtain ⟨-, -, -, -, hkey, -⟩ := @generate_iff _ _ id id f.toExpr f'.toExpr f f' .float64 .float64
    rfl rfl hf hf' hapart
  exact ⟨hf, hf', hapart, fun hname => absurd (hkey.mpr hname) (by decide +kernel)⟩

end KernelSource

end DistributedVector
