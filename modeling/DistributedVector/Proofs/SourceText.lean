import DistributedVector.Proofs.Scope

/-!
# The text of a generated kernel

A generated kernel is text, and so is all that a device gets to know of it. The text can be read
back: the declarations of the user functions in front, the name, the parameters of the signature,
the loop over the slice and, inside of it, the line that stores the result.

Declarations are told from each other by the line that each of them starts with. The body of a user
function may be any text, so that this takes that no other line of its declaration starts in this
way.

## Main definitions

* `UserFunction.StandsAlone` — the declaration of a function is not read as several ones
* `KernelText.Shows` — an entry of the signature shows a parameter

## Main results

* `Text.lines_append_break`, `Text.intercalate_lines` — texts and their lines
* `KernelText.groups_declarations` — declarations are told from each other
* `KernelText.declaredName_declaration` — a declaration gives the name of its function
* `KernelText.contents_of_ofFormula` — the text of a generated kernel contains the loop, the line
  that stores the result and a declaration of each user function
* `KernelText.read_of_ofFormula` — the text of a generated kernel can be read back
-/

namespace DistributedVector

namespace Text

/-! ## Lines -/

theorem lines_ne_nil (s : List Char) : lines s ≠ [] := by
  cases s with
  | nil => exact List.cons_ne_nil _ _
  | cons c s =>
    rw [lines]
    split
    · exact List.cons_ne_nil _ _
    · split <;> exact List.cons_ne_nil _ _

/-- A line break ends a line. -/
theorem lines_append_break (a b : List Char) : lines (a ++ '\n' :: b) = lines a ++ lines b := by
  induction a with
  | nil => simp [lines]
  | cons c a ih =>
    by_cases hc : c = '\n'
    · simp [lines, hc, ih]
    · obtain ⟨line, rest, h⟩ := List.exists_cons_of_ne_nil (lines_ne_nil a)
      simp [lines, hc, ih, h]

theorem lines_of_notMem {s : List Char} (h : '\n' ∉ s) : lines s = [s] := by
  induction s with
  | nil => rfl
  | cons c s ih =>
    rw [List.mem_cons, not_or] at h
    rw [lines, if_neg (Ne.symm h.1), ih h.2]

/-- A text without line breaks in front starts the first line. -/
theorem exists_lines_append {front : List Char} (h : '\n' ∉ front) (s : List Char) :
    ∃ line rest, lines (front ++ s) = (front ++ line) :: rest := by
  induction front with
  | nil => exact List.exists_cons_of_ne_nil (lines_ne_nil s)
  | cons c front ih =>
    rw [List.mem_cons, not_or] at h
    obtain ⟨line, rest, hlines⟩ := ih h.2
    exact ⟨line, rest, by rw [List.cons_append, lines, if_neg (Ne.symm h.1), hlines]; rfl⟩

/-- A text is its lines with line breaks between them. -/
theorem intercalate_lines (s : List Char) : ['\n'].intercalate (lines s) = s := by
  induction s with
  | nil => rfl
  | cons c s ih =>
    obtain ⟨line, rest, h⟩ := List.exists_cons_of_ne_nil (lines_ne_nil s)
    rw [h, KernelTerm.intercalate_cons] at ih
    rw [lines]
    split
    next hc => rw [KernelTerm.intercalate_cons, h, List.flatMap_cons, ← ih, hc]; simp
    next hc => rw [h, ← ih]; exact KernelTerm.intercalate_cons _ _ _

/-- The lines of texts with line breaks between them. -/
theorem lines_intercalate {parts : List (List Char)} (h : parts ≠ []) :
    lines (['\n'].intercalate parts) = parts.flatMap lines := by
  induction parts with
  | nil => exact absurd rfl h
  | cons part parts ih =>
    cases parts with
    | nil => simp
    | cons next parts =>
      rw [List.intercalate_cons_cons, List.append_assoc, List.singleton_append, lines_append_break,
        ih (List.cons_ne_nil _ _)]
      rfl

end Text

open Text

/-- No line of a function's declaration but the first one starts a declaration. -/
def UserFunction.StandsAlone (u : UserFunction) : Prop :=
  ∀ line ∈ (lines u.declaration.toList).tail, KernelText.declares line = false

instance (u : UserFunction) : Decidable u.StandsAlone :=
  inferInstanceAs (Decidable (∀ line ∈ (lines u.declaration.toList).tail,
    KernelText.declares line = false))

/-- How a declaration starts: with the type of the result and the name. -/
theorem UserFunction.exists_declaration_eq (u : UserFunction) :
    ∃ s : List Char, u.declaration.toList =
    "__device__ ".toList ++ u.result.kernelName.toList ++ [' '] ++ u.name.toList ++ '(' :: s := by
  refine ⟨(", ".intercalate (u.params.map paramText) ++ ") \x7b\n    " ++ u.body ++
    "\n\x7d").toList, ?_⟩
  have hspace : " ".toList = [' '] := rfl
  have hopen : "(".toList = ['('] := rfl
  unfold UserFunction.declaration
  simp only [String.toList_append, hspace, hopen, List.append_assoc, List.cons_append,
    List.nil_append]

namespace KernelText

theorem newline_notMem_of_isIdentifier {name : String} (h : isIdentifier name) :
    '\n' ∉ name.toList :=
  fun hbreak => absurd (isWordChar_of_mem h hbreak) (by decide)

/-! ## Declarations -/

/-- A declaration gives the name of its function. -/
theorem declaredName_declaration {u : UserFunction} (hu : isIdentifier u.name) :
    declaredName u.declaration = u.name := by
  obtain ⟨s, hs⟩ := u.exists_declaration_eq
  have hword : ∀ c ∈ u.name.toList, isWordChar c := fun c hc => isWordChar_of_mem hu hc
  have htype : '(' ∉ "__device__ ".toList ++ u.result.kernelName.toList ++ [' '] := by
    cases u.result <;> decide
  have hfront : ∀ c ∈ "__device__ ".toList ++ u.result.kernelName.toList ++ [' '] ++ u.name.toList,
      decide (c ≠ '(') = true := by
    intro c hc
    rw [decide_eq_true_eq]
    rintro rfl
    rcases List.mem_append.mp hc with hc | hc
    · exact htype hc
    · exact absurd (hword _ hc) (by decide)
  have hspace : isWordChar ' ' = false := by decide
  have htake : u.declaration.toList.takeWhile (· ≠ '(') =
      "__device__ ".toList ++ u.result.kernelName.toList ++ [' '] ++ u.name.toList := by
    rw [hs, List.takeWhile_append_of_pos hfront, List.takeWhile_cons_of_neg (by simp),
      List.append_nil]
  -- the word in front of the parenthesis ends at the space behind the type
  have hback : (u.name.toList.reverse ++
      ' ' :: ("__device__ ".toList ++ u.result.kernelName.toList).reverse).takeWhile isWordChar =
      u.name.toList.reverse := by
    rw [List.takeWhile_append_of_pos (by simpa using hword),
      List.takeWhile_cons_of_neg (by simp [hspace]), List.append_nil]
  rw [declaredName, htake, List.reverse_append, List.reverse_append, List.reverse_singleton,
    List.singleton_append, hback, List.reverse_reverse, String.ofList_toList]

/-- The lines of a declaration with the empty line behind it. -/
def block (u : UserFunction) : List (List Char) := lines u.declaration.toList ++ [[]]

/-- The first line of a declaration starts it. -/
theorem exists_block_eq (u : UserFunction) : ∃ line,
    block u = line :: (block u).tail ∧ declares line := by
  have hbreak : '\n' ∉ "__device__ ".toList := by decide
  obtain ⟨s, hs⟩ := u.exists_declaration_eq
  obtain ⟨line, rest, h⟩ := exists_lines_append hbreak
    (u.result.kernelName.toList ++ [' '] ++ u.name.toList ++ '(' :: s)
  refine ⟨"__device__ ".toList ++ line, ?_, ?_⟩
  · simp only [List.append_assoc] at hs h
    rw [block, hs, h, List.cons_append, List.tail_cons]
  · rw [declares, List.isPrefixOf_iff_prefix]
    exact List.prefix_append _ _

/-- Lines that start no declaration are in none. -/
theorem groups_of_not_declares {front : List (List Char)}
    (h : ∀ line ∈ front, (!declares line) = true)
    (rest : List (List Char)) : groups (front ++ rest) = groups rest := by
  induction front with
  | nil => rfl
  | cons line front ih =>
    rw [List.forall_mem_cons] at h
    rw [List.cons_append, groups, if_neg (by simpa using h.1), ih h.2]

/-- A declaration that stands alone goes on to the next one. -/
theorem groups_block {u : UserFunction} (hu : u.StandsAlone) {rest : List (List Char)}
    (hrest : ∀ line ∈ rest.head?, declares line) :
    groups (block u ++ rest) = block u :: groups rest := by
  obtain ⟨line, hblock, hline⟩ := exists_block_eq u
  have htail : ∀ l ∈ (block u).tail, (!declares l) = true := by
    intro l hl
    obtain ⟨first, others, hlines⟩ := List.exists_cons_of_ne_nil (lines_ne_nil u.declaration.toList)
    rw [block, hlines, List.cons_append, List.tail_cons, List.mem_append, List.mem_singleton] at hl
    rcases hl with hl | rfl
    · rw [hu l (by rw [hlines]; exact hl), Bool.not_false]
    · rfl
  have htake : (((block u).tail ++ rest).takeWhile (!declares ·)) = (block u).tail := by
    rw [List.takeWhile_append_of_pos htail]
    cases rest with
    | nil => simp
    | cons l rest => simp [hrest l rfl]
  have hskip : groups ((block u).tail ++ rest) = groups rest := groups_of_not_declares htail rest
  rw [hblock, List.cons_append, groups, if_pos hline, htake, hskip]

/-- Declarations that stand alone are told from each other. -/
theorem groups_declarations {us : List UserFunction} (hus : ∀ u ∈ us, u.StandsAlone) :
    groups (us.flatMap block) = us.map block := by
  induction us with
  | nil => rfl
  | cons u us ih =>
    rw [List.forall_mem_cons] at hus
    rw [List.flatMap_cons, groups_block hus.1, ih hus.2, List.map_cons]
    -- what follows is the next declaration, if anything does
    intro line hline
    cases us with
    | nil => cases hline
    | cons v us =>
      obtain ⟨first, hblock, hfirst⟩ := exists_block_eq v
      rw [List.flatMap_cons, hblock] at hline
      cases hline
      exact hfirst

theorem declaration_block (u : UserFunction) : declaration (block u) = u.declaration := by
  rw [declaration, block, List.dropLast_concat, intercalate_lines, String.ofList_toList]

/-! ## The signature -/

/-- An entry of the signature shows a parameter: a name behind a star or a space. -/
structure Shows (entry : String) (m : Mention) : Prop where
  named : isIdentifier m.name
  line : '\n' ∉ entry.toList
  spelled : ∃ front, ∃ c : Char, entry.toList = front ++ c :: m.name.toList ∧
    (c = '*' ∧ m.kind = .vector ∨ c = ' ' ∧ m.kind = .scalar)

/-- An entry that stands in the signature, with a comma behind it or not, is read. -/
theorem readEntry_of_shows {entry : String} {m : Mention} (h : Shows entry m) (indent : List Char)
    {comma : List Char} (hcomma : comma = [] ∨ comma = [',']) :
    readEntry (indent ++ entry.toList ++ comma) = m := by
  obtain ⟨front, c, hentry, hc⟩ := h.spelled
  have hword : ∀ d ∈ m.name.toList.reverse, isWordChar d := fun d hd =>
    isWordChar_of_mem h.named (List.mem_reverse.mp hd)
  have hend : isWordChar c = false := by
    rcases hc with ⟨rfl, -⟩ | ⟨rfl, -⟩ <;> decide
  let back := m.name.toList.reverse ++ c :: (front.reverse ++ indent.reverse)
  -- a name does not end with a comma
  have hback : (indent ++ entry.toList ++ comma).reverse.dropWhile (· = ',') = back := by
    have hhead : back.dropWhile (· = ',') = back := by
      obtain ⟨d, rest, hd, -⟩ := exists_cons_of_isIdentifier h.named
      have hne : m.name.toList.reverse ≠ [] := by rw [hd]; simp
      obtain ⟨l, others, hl⟩ := List.exists_cons_of_ne_nil hne
      have hword : isWordChar l := hword l (hl ▸ List.mem_cons_self)
      have hlast : ¬ (l = ',') := by
        rintro rfl
        revert hword
        decide
      simp only [back, hl, List.cons_append]
      rw [List.dropWhile_cons_of_neg (by simpa using hlast)]
    have hreverse : (indent ++ entry.toList).reverse = back := by
      simp only [back, hentry, List.reverse_append, List.reverse_cons, List.append_assoc,
        List.cons_append, List.nil_append]
    rcases hcomma with rfl | rfl
    · rw [List.append_nil, hreverse, hhead]
    · rw [List.reverse_append, hreverse, List.reverse_singleton, List.singleton_append,
        List.dropWhile_cons_of_pos (by simp), hhead]
  have hname : back.takeWhile isWordChar = m.name.toList.reverse := by
    rw [List.takeWhile_append_of_pos hword, List.takeWhile_cons_of_neg (by simp [hend]),
      List.append_nil]
  have hkind : (back.dropWhile isWordChar).head? = some c := by
    rw [List.dropWhile_append_of_pos hword, List.dropWhile_cons_of_neg (by simp [hend]),
      List.head?_cons]
  rw [readEntry]
  simp only [hback, hname, hkind, List.reverse_reverse, String.ofList_toList]
  obtain ⟨kind, name⟩ := m
  rcases hc with ⟨rfl, hm⟩ | ⟨rfl, hm⟩ <;> cases hm <;> rfl

/-- A line with a space in front does not name the kernel. -/
theorem opens_space (s : List Char) : opens (' ' :: s) = false := rfl

/-- The lines of the signature show its entries in their order. -/
theorem lines_signature {entries : List String} {ms : List Mention}
    (h : List.Forall₂ Shows entries ms) (hne : entries ≠ []) {text : String}
    (htext : text = ",\n".intercalate (entries.map ("    " ++ ·))) :
    (lines text.toList).map readEntry = ms ∧ ∀ line ∈ lines text.toList, opens line = false := by
  have hindent : "    ".toList = [' ', ' ', ' ', ' '] := rfl
  have hbreak : ∀ {entry : String}, '\n' ∉ entry.toList → '\n' ∉ "    ".toList ++ entry.toList := by
    intro entry hentry
    rw [List.mem_append, not_or]
    exact ⟨by decide, hentry⟩
  induction h generalizing text with
  | nil => exact absurd rfl hne
  | @cons entry m entries ms hshows hrest ih =>
    cases hrest with
    | nil =>
      have hchars : text.toList = "    ".toList ++ entry.toList := by
        rw [htext, List.map_cons, List.map_nil, String.intercalate_singleton, String.toList_append]
      have hread := readEntry_of_shows hshows "    ".toList (.inl rfl)
      rw [List.append_nil] at hread
      rw [hchars, lines_of_notMem (hbreak hshows.line), List.map_singleton, hread,
        List.forall_mem_singleton]
      exact ⟨rfl, opens_space _⟩
    | @cons next m' entries ms hnext hrest =>
      obtain ⟨hms, hopens⟩ := ih (List.cons_ne_nil _ _) rfl
      have hcomma : ",\n".toList = [',', '\n'] := rfl
      have hchars : text.toList = ("    ".toList ++ entry.toList ++ [',']) ++
          '\n' :: (",\n".intercalate ((next :: entries).map ("    " ++ ·))).toList := by
        rw [htext, List.map_cons, List.map_cons, String.intercalate_cons_cons]
        simp only [String.toList_append, hcomma, List.append_assoc, List.cons_append,
          List.nil_append]
      have hline : '\n' ∉ "    ".toList ++ entry.toList ++ [','] := by
        rw [List.mem_append, not_or]
        exact ⟨hbreak hshows.line, by decide⟩
      rw [hchars, lines_append_break, lines_of_notMem hline, List.singleton_append, List.map_cons,
        hms, readEntry_of_shows hshows _ (.inr rfl), List.forall_mem_cons]
      exact ⟨rfl, opens_space _, hopens⟩

/-- The entries of a signature show the length, the result and the parameters. -/
theorem forall₂_shows {result : DataType} {params : List Parameter} {entries : List String}
    (h : KernelSource.signature result params = .ok entries)
    (hparams : ∀ p ∈ params, isIdentifier p.name) :
    List.Forall₂ Shows entries
      (⟨.scalar, "n"⟩ :: ⟨.vector, "res"⟩ :: params.map fun p => ⟨p.kind, p.name⟩) := by
  obtain ⟨type, -, h⟩ := bind_eq_ok_iff.mp h
  obtain ⟨texts, htexts, h⟩ := bind_eq_ok_iff.mp h
  cases h
  have htype : ∀ type : ElementType, '\n' ∉ type.kernelName.toList := by
    intro type
    cases type <;> decide
  refine .cons ⟨by decide, by decide, "unsigned long long".toList, ' ', rfl, .inr ⟨rfl, rfl⟩⟩
    (.cons ⟨by decide, ?_, (type.kernelName ++ " ").toList, '*', ?_, .inl ⟨rfl, rfl⟩⟩ ?_)
  · rw [String.toList_append, List.mem_append, not_or]
    exact ⟨htype type, by decide⟩
  · simp
  · rw [List.forall₂_map_right_iff]
    refine ((List.forall₂_and_left _ _).mpr ⟨hparams, mapM_eq_ok_iff.mp htexts⟩).flip.imp ?_
    rintro text p ⟨hname, htext⟩
    obtain ⟨t, -, htext⟩ := bind_eq_ok_iff.mp htext
    obtain ⟨name, kind, dt⟩ := p
    cases kind <;> cases htext
    · refine ⟨hname, ?_, ("const " ++ t.kernelName ++ " ").toList, '*', ?_, .inl ⟨rfl, rfl⟩⟩
      · simp only [String.toList_append, List.mem_append, not_or]
        exact ⟨⟨⟨by decide, htype t⟩, by decide⟩, newline_notMem_of_isIdentifier hname⟩
      · simp
    · refine ⟨hname, ?_, t.kernelName.toList, ' ', ?_, .inr ⟨rfl, rfl⟩⟩
      · simp only [String.toList_append, List.mem_append, not_or]
        exact ⟨⟨htype t, by decide⟩, newline_notMem_of_isIdentifier hname⟩
      · simp

end KernelText

/-! ## Terms -/

namespace Reading

open KernelText

mutual

/-- A term is written on one line. -/
theorem newline_notMem_chars : (t : Reading Mention) → t.Written → '\n' ∉ t.chars
  | leaf ⟨kind, name⟩, ht => by
    have hname := newline_notMem_of_isIdentifier (ht.leaves ⟨kind, name⟩ List.mem_cons_self)
    cases kind with
    | vector =>
      rw [chars, charsOfMention, List.mem_append, not_or]
      exact ⟨hname, by decide⟩
    | scalar => exact hname
  | unary op t, ht => by
    have hop : '\n' ∉ op.symbol.toList := by cases op <;> decide
    simp [chars, hop, newline_notMem_chars t ⟨ht.leaves, ht.called⟩]
  | binary op l r, ht => by
    have hop : '\n' ∉ op.symbol.toList := by cases op <;> decide
    simp [chars, hop, newline_notMem_chars l ht.left, newline_notMem_chars r ht.right]
  | call name args, ht => by
    have hname := newline_notMem_of_isIdentifier (ht.called name List.mem_cons_self)
    simp [chars, hname, newline_notMem_charsOfArgs args ht.args]

theorem newline_notMem_charsOfArgs : (args : List (Reading Mention)) → WrittenArgs args →
    '\n' ∉ charsOfArgs args
  | [], _ => List.not_mem_nil
  | t :: rest, h => by
    simp [charsOfArgs, newline_notMem_chars t h.head, newline_notMem_charsOfMore rest h.tail]

theorem newline_notMem_charsOfMore : (args : List (Reading Mention)) → WrittenArgs args →
    '\n' ∉ charsOfMore args
  | [], _ => List.not_mem_nil
  | t :: rest, h => by
    simp [charsOfMore, newline_notMem_chars t h.head, newline_notMem_charsOfMore rest h.tail]

end

end Reading

namespace KernelText

/-! ## The kernel -/

theorem readOpening_append (name : String) :
    readOpening (opening ++ name.toList ++ ['(']) = some name := by
  rw [readOpening, List.append_assoc, behind?_append, Option.bind_eq_bind, Option.bind_some,
    List.reverse_append, List.reverse_singleton, List.singleton_append]
  simp only [List.reverse_reverse, String.ofList_toList, Option.pure_def]

/-- The line that stores a term is read. -/
theorem readResult_append {t : Reading Mention} (ht : t.Written) :
    readResult ("        res[idx] = ".toList ++ t.chars ++ [';']) = some t := by
  have hfuel : t.chars.length < (t.chars ++ [';']).length + 1 := by
    rw [List.length_append]
    omega
  have hread := Reading.readTerm_chars t ht _ [';'] hfuel (.inr (.inr (.inr rfl)))
  rw [readResult, List.append_assoc, behind?_append, Option.bind_eq_bind, Option.bind_some]
  simp only [hread]

/-- A text with the lines of a kernel is read from its parts. -/
theorem read_eq {s : String} {front signature : List (List Char)} {line result : List Char}
    (hs : lines s.toList = front ++ line :: (signature ++ ([")".toList, "\x7b".toList] ++ loop ++
      [result, "    \x7d".toList, "\x7d".toList, []])))
    (hline : opens line) (hsignature : ∀ l ∈ signature, opens l = false) :
    read s = do
      let term ← readResult result
      let parameters ← readSignature signature
      return ⟨(groups front).map declaration, ← readOpening line, parameters, term⟩ := by
  have hback : (lines s.toList).reverse = [[], "\x7d".toList, "    \x7d".toList] ++ result ::
      ((loop.reverse ++ ["\x7b".toList, ")".toList]) ++
        (signature.reverse ++ line :: front.reverse)) := by
    rw [hs]
    simp only [List.reverse_append, List.reverse_cons, List.append_assoc, List.cons_append,
      List.nil_append, List.reverse_nil]
  have hword : ∀ l ∈ signature.reverse, (!opens l) = true := fun l hl => by
    rw [hsignature l (List.mem_reverse.mp hl), Bool.not_false]
  have htake : (signature.reverse ++ line :: front.reverse).takeWhile (!opens ·) =
      signature.reverse := by
    rw [List.takeWhile_append_of_pos hword, List.takeWhile_cons_of_neg (by simp [hline]),
      List.append_nil]
  have hdrop : (signature.reverse ++ line :: front.reverse).dropWhile (!opens ·) =
      line :: front.reverse := by
    rw [List.dropWhile_append_of_pos hword, List.dropWhile_cons_of_neg (by simp [hline])]
  rw [read, hback, behind?_append]
  simp only [Option.bind_eq_bind, Option.bind_some, behind?_append, htake, hdrop,
    List.reverse_reverse]

/-- The lines of the loop around the line that stores a term. -/
theorem lines_strideLoop {term : String} (hterm : '\n' ∉ term.toList) :
    (strideLoop.lines ("res[idx] = " ++ term ++ ";")).flatMap (fun s => lines s.toList) =
      loop ++ ["        res[idx] = ".toList ++ term.toList ++ [';'], "    \x7d".toList] := by
  have htext : strideLoop.lines ("res[idx] = " ++ term ++ ";") =
    ["    for (unsigned long long idx = blockIdx.x * (unsigned long long)blockDim.x + threadIdx.x;",
      "         idx < n; idx += (unsigned long long)blockDim.x * gridDim.x) \x7b",
      "        " ++ ("res[idx] = " ++ term ++ ";"), "    \x7d"] := rfl
  have hindent : "        ".toList ++ "res[idx] = ".toList = "        res[idx] = ".toList := rfl
  have hend : ";".toList = [';'] := rfl
  have hresult : ("        " ++ ("res[idx] = " ++ term ++ ";")).toList =
      "        res[idx] = ".toList ++ term.toList ++ [';'] := by
    rw [← hindent, ← hend]
    simp only [String.toList_append, List.append_assoc]
  have hline : '\n' ∉ "        res[idx] = ".toList ++ term.toList ++ [';'] := by
    simp only [List.mem_append, not_or]
    exact ⟨⟨by decide, hterm⟩, by decide⟩
  rw [htext, List.flatMap_cons, List.flatMap_cons, List.flatMap_cons, hresult,
    lines_of_notMem hline]
  rfl

/-- The lines of the text of a kernel: those of the declarations, the name, the signature and the
loop. -/
theorem lines_text {us : List UserFunction} {name term : String} {entries : List String}
    (hname : '\n' ∉ name.toList) (hterm : '\n' ∉ term.toList) :
    lines ("\n".intercalate (KernelSource.lines (us.map UserFunction.declaration) name
      entries term) ++
        "\n").toList =
      us.flatMap block ++ (opening ++ name.toList ++ ['(']) ::
        (lines (",\n".intercalate (entries.map ("    " ++ ·))).toList ++
          ([")".toList, "\x7b".toList] ++ loop ++
            ["        res[idx] = ".toList ++ term.toList ++ [';'], "    \x7d".toList,
              "\x7d".toList, []])) := by
  have hbreak : "\n".toList = ['\n'] := rfl
  have hne : (KernelSource.lines (us.map UserFunction.declaration) name entries term).map
    String.toList ≠
      [] := by
    simp [KernelSource.lines]
  have hopen : '\n' ∉ opening ++ name.toList ++ ['('] := by
    simp only [List.mem_append, not_or]
    exact ⟨⟨by decide, hname⟩, by decide⟩
  have hdeclarations : ((us.map UserFunction.declaration).flatMap fun d => [d, ""]).flatMap
      (fun s => lines s.toList) = us.flatMap block := by
    simp only [List.flatMap_map, List.flatMap_assoc]
    rfl
  have hopening : ("extern \"C\" __global__ void " ++ name ++ "(").toList =
      opening ++ name.toList ++ ['('] := by
    simp only [String.toList_append]
    rfl
  rw [String.toList_append, hbreak, lines_append_break, String.toList_intercalate, hbreak,
    lines_intercalate hne, List.flatMap_map, KernelSource.lines]
  simp only [List.flatMap_append, List.flatMap_cons, List.flatMap_nil, hdeclarations, hopening,
    lines_of_notMem hopen, lines_strideLoop hterm]
  simp only [List.append_assoc, List.cons_append, List.nil_append]
  rfl

/-- The parameters of the signature are the leaves as the term mentions them. -/
theorem map_parametersFrom (first : Nat) (leaves : List (Terminal DataType)) :
    (parametersFrom first leaves).map (fun p => (⟨p.kind, p.name⟩ : Mention)) =
      Formula.mentions first leaves := by
  induction leaves generalizing first with
  | nil => rfl
  | cons leaf leaves ih =>
    rw [parametersFrom, List.map_cons, ih]
    rfl

theorem isIdentifier_of_parameters {f : Formula DataType} {p : Parameter} (hp : p ∈ f.parameters) :
    isIdentifier p.name := by
  have hmem : p.name ∈ f.parameters.map Parameter.name := List.mem_map_of_mem hp
  rw [Formula.parameters, Formula.names_parametersFrom, List.mem_map] at hmem
  obtain ⟨i, -, hi⟩ := hmem
  exact hi ▸ isIdentifier_parameterName i

theorem newline_notMem_kernelName {name : String} (h : IsKernelName name) : '\n' ∉ name.toList := by
  obtain ⟨s, rfl, hs⟩ := h.spelled
  have hstart : '\n' ∉ kernelPrefix.toList := by decide
  rw [String.toList_append, List.mem_append, not_or]
  refine ⟨hstart, fun hbreak => ?_⟩
  rcases hs _ hbreak with h | h <;> exact absurd h (by decide)

/-- The lines of the text of a generated kernel, if the names of the user functions are
identifiers. -/
theorem lines_of_ofFormula {f : Formula DataType} {result : DataType} {source : KernelSource}
    (h : KernelSource.ofFormula f result = .ok source)
    (hnames : ∀ u ∈ f.userCalls, isIdentifier u.name) :
    ∃ t entries, f.lower = .ok t ∧ t.reading.Written ∧
      KernelSource.signature result f.parameters = .ok entries ∧
      lines source.text.toList =
        f.userFunctions.flatMap block ++ (opening ++ source.name.toList ++ ['(']) ::
          (lines (",\n".intercalate (entries.map ("    " ++ ·))).toList ++
            ([")".toList, "\x7b".toList] ++ loop ++
              ["        res[idx] = ".toList ++ t.render.toList ++ [';'],
                "    \x7d".toList, "\x7d".toList, []])) := by
  obtain ⟨t, entries, ht, hentries, htext⟩ := KernelSource.text_of_ofFormula h
  obtain ⟨-, -, ⟨e, rfl⟩, -, hsupported⟩ := KernelSource.ofFormula_eq_ok h
  obtain ⟨o, ho⟩ := Formula.exists_lower_iff.mp ⟨t, ht⟩
  obtain ⟨t', ht', -, -, hleaves, hcalled⟩ := Formula.exists_read_render ho hnames
  obtain rfl : t = t' := Except.ok.inj (ht.symm.trans ht')
  have hwritten : t.reading.Written := Formula.written_reading hleaves hcalled hnames
  have hname : '\n' ∉ source.name.toList := by
    obtain ⟨p, hp, -⟩ := map_eq_ok_iff.mp ht
    rw [KernelSource.name_of_ofFormula h]
    exact newline_notMem_kernelName (Formula.isKernelName_kernelName hp
      (supported_of_parametersFrom fun p hp => DataType.isSupported_iff.mpr (hsupported p hp)) e)
  have hterm : '\n' ∉ t.render.toList := by
    rw [t.toList_render]
    exact Reading.newline_notMem_chars _ hwritten
  exact ⟨t, entries, ht, hwritten, hentries, htext ▸ lines_text hname hterm⟩

/-- The text of a generated kernel contains the loop with the line that stores the result, and for
each of its user functions a declaration that gives the name by which it is called. -/
theorem contents_of_ofFormula {f : Formula DataType} {result : DataType} {source : KernelSource}
    (h : KernelSource.ofFormula f result = .ok source)
    (hnames : ∀ u ∈ f.userCalls, isIdentifier u.name) : ∃ t, f.lower = .ok t ∧
      loop ++ ["        res[idx] = ".toList ++ t.render.toList ++ [';']] <:+: lines
        source.text.toList ∧
      ∀ u ∈ f.userFunctions, lines u.declaration.toList <:+: lines source.text.toList ∧
        declaredName u.declaration = u.name := by
  obtain ⟨t, entries, ht, -, -, hlines⟩ := lines_of_ofFormula h hnames
  refine ⟨t, ht, ?_, fun u hu => ⟨?_, declaredName_declaration
    (hnames u (Formula.mem_distinct.mp hu))⟩⟩
  · -- what is in front of the loop and behind the line
    refine ⟨f.userFunctions.flatMap block ++ (opening ++ source.name.toList ++ ['(']) ::
      (lines (",\n".intercalate (entries.map ("    " ++ ·))).toList ++ [")".toList, "\x7b".toList]),
      ["    \x7d".toList, "\x7d".toList, []], ?_⟩
    rw [hlines]
    simp only [List.append_assoc, List.cons_append, List.nil_append]
  · have hblock : lines u.declaration.toList <+: block u := List.prefix_append _ _
    have hall : block u <:+: f.userFunctions.flatMap block := by
      obtain ⟨before, behind, husers⟩ := List.append_of_mem hu
      rw [husers, List.flatMap_append, List.flatMap_cons]
      exact ⟨_, _, (List.append_assoc _ _ _)⟩
    rw [hlines]
    exact (hblock.isInfix.trans hall).trans (List.prefix_append _ _).isInfix

/-- The text of a generated kernel can be read back: the declarations of the user functions, the
name, the parameters and the term that is stored, if the names of the user functions are identifiers
and their declarations stand alone. -/
theorem read_of_ofFormula {f : Formula DataType} {result : DataType} {source : KernelSource}
    (h : KernelSource.ofFormula f result = .ok source)
    (hnames : ∀ u ∈ f.userCalls, isIdentifier u.name) (halone : ∀ u ∈ f.userCalls, u.StandsAlone) :
    ∃ t, f.lower = .ok t ∧ read source.text = some ⟨f.userFunctions.map UserFunction.declaration,
      source.name, Formula.mentions 1 f.terminals, t.reading⟩ := by
  obtain ⟨t, entries, ht, hwritten, hentries, hlines⟩ := lines_of_ofFormula h hnames
  have hshows := forall₂_shows hentries fun p hp => isIdentifier_of_parameters hp
  have hne : entries ≠ [] := by
    rintro rfl
    cases hshows
  obtain ⟨hsignature, hopens⟩ := lines_signature hshows hne rfl
  have hopening : opens (opening ++ source.name.toList ++ ['(']) := by
    rw [opens, List.isPrefixOf_iff_prefix, List.append_assoc]
    exact List.prefix_append _ _
  have hgroups : groups (f.userFunctions.flatMap block) = f.userFunctions.map block :=
    groups_declarations fun u hu => halone u (Formula.mem_distinct.mp hu)
  refine ⟨t, ht, ?_⟩
  rw [read_eq hlines hopening hopens, t.toList_render, readResult_append hwritten, readSignature,
    hsignature, Formula.parameters, map_parametersFrom, readOpening_append, hgroups, List.map_map]
  simp only [Function.comp_def, declaration_block]
  rfl

end KernelText

end DistributedVector
