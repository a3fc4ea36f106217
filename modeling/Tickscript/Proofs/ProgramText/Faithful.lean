import Tickscript.Proofs.Machine.Safety
import Tickscript.Proofs.ProgramText.Rereading
import Tickscript.Proofs.Source.Pieces

/-!
# `Tickscript.Proofs.ProgramText.Faithful`: compiled programs as text

Is a compiled program read back from its text? Its instructions are always legible: an argument is
an operand of the source or a word of the generator's own (`Statement.draws_code`), and both are
pieces that can stand as words (`isPiece_of_compileCode`). So only line breaks are left to go
wrong, and among pieces only literals can hold them. A compiled program is read back exactly if no
literal in it does (`faithful_iff_of_compileCode`).

The condition is not empty. A literal of a source text may have any characters but the quote, and
it arrives in the code as it stands (`compileCode_printing`).
-/

set_option autoImplicit false

namespace Tickscript

open Tickscript.Text Tickscript.Numeral

/-! ### Where the arguments of an instruction come from -/

/-- The words that the generator puts into the code by itself: the conditions and operations of
the jumps and steps it makes up, and all words of the table. -/
def Mnemonics.ownWords (m : Mnemonics) : List String :=
  [always, "equal", loopFlag, "false", "add", "1"] ++ m.entries.map Prod.snd

/-- The words that do not depend on the table, as one fact for `simp`. -/
theorem fixed_mem_ownWords (m : Mnemonics) :
    always ∈ m.ownWords ∧ "equal" ∈ m.ownWords ∧ loopFlag ∈ m.ownWords ∧ "false" ∈ m.ownWords ∧
      "add" ∈ m.ownWords ∧ "1" ∈ m.ownWords := by
  simp [Mnemonics.ownWords]

/-- The word of an operator in the table is one of the generator's own. An operator that is not in
the table would get no word, but such a statement is refused. -/
theorem operationWord_mem_ownWords {m : Mnemonics} {op : Token} (h : (m.get? op.text).isSome) :
    operationWord m op ∈ m.ownWords := by
  obtain ⟨word, hword⟩ := Option.isSome_iff_exists.mp h
  have mem := List.mem_map_of_mem (f := Prod.snd) (Table.mem_of_get? hword)
  rw [operationWord, hword]
  exact List.mem_append_right _ mem

/-- The arguments of an instruction are among the given operands and the generator's own words.
The operands are those of a statement of the source. -/
def Instr.Draws (m : Mnemonics) (operands : List String) (i : Instr) : Prop :=
  ∀ arg ∈ i.args, arg ∈ operands ∨ arg ∈ m.ownWords

/-- More operands do no harm. An instruction draws on some of the operands of its statement. -/
theorem Instr.Draws.mono {m : Mnemonics} {few many : List String} {i : Instr}
    (h : i.Draws m few) (sub : few ⊆ many) : i.Draws m many := by
  intro arg harg
  exact (h arg harg).imp_left (sub ·)

/-- A combination draws on its operands, be it a reading of a sensor or an operation. -/
theorem draws_combineInstr {m : Mnemonics} {op : Token} (h : m.Supports op)
    (dest left right : String) :
    (combineInstr m dest left op right).Draws m [dest, left, right] := by
  unfold combineInstr
  split
  · exact fun arg harg => Or.inl harg
  · rename_i hsensor
    intro arg harg
    rcases List.mem_cons.mp harg with rfl | harg
    · exact Or.inr (operationWord_mem_ownWords (h.resolve_left hsensor))
    · exact Or.inl harg

/-- A chain draws on its destination and its operands. By induction on the chain, for every left
operand. -/
theorem draws_combineAll {m : Mnemonics} {dest left : String} {rest : List (Token × String)}
    (supported : ∀ pair ∈ rest, m.Supports pair.1) :
    ∀ i ∈ combineAll m dest left rest, i.Draws m (dest :: left :: rest.map Prod.snd) := by
  induction rest generalizing left with
  | nil =>
    intro i hi
    cases hi
  | cons pair rest ih =>
    intro i hi
    rcases List.mem_cons.mp hi with rfl | hi
    · refine (draws_combineInstr (supported pair List.mem_cons_self) dest left pair.2).mono ?_
      simp
    · -- Behind the first operator the left operand is the destination.
      have others : ∀ other ∈ rest, m.Supports other.1 := by
        intro other hother
        exact supported other (List.mem_cons_of_mem _ hother)
      refine (ih others i hi).mono ?_
      have tail : rest.map Prod.snd ⊆ dest :: left :: (pair :: rest).map Prod.snd :=
        List.subset_cons_of_subset _ (List.subset_cons_of_subset _ (List.subset_cons_self _ _))
      simpa using tail

/-- The step of a loop draws on the counter, and on the operands of a step that is written out. -/
theorem draws_advanceInstr {m : Mnemonics} {step : Option Step}
    (h : ∀ s ∈ step, m.Supports s.op) (counter : String) :
    (advanceInstr m counter step).Draws m
      (counter :: step.elim [] fun s => [s.dest, s.left, s.right]) := by
  cases step with
  | none => simp [advanceInstr, Instr.Draws, Instr.plain, fixed_mem_ownWords]
  | some step =>
    exact (draws_combineInstr (h step rfl) _ _ _).mono (List.subset_cons_self _ _)

/-- The code of a statement draws on the operands of the statement. There is one case for each
statement; the loop is the one with code of several kinds. -/
theorem Statement.draws_code {m : Mnemonics} {s : Statement} {own : Nat} {partner : Option Nat}
    (supported : s.Supported m) : ∀ i ∈ s.code m own partner, i.Draws m s.operands := by
  cases s with
  | ignored line words => simp [Statement.code]
  | assign dest first rest =>
    intro i hi
    simp only [Statement.code] at hi
    split at hi
    · rw [List.mem_singleton.mp hi]
      simp [Instr.Draws, Instr.plain, Statement.operands]
    · exact draws_combineAll supported i hi
  | openConditional line test =>
    have word := operationWord_mem_ownWords supported.2.2
    simp [Statement.code, Instr.Draws, Instr.jumpTo, Instr.jumpTo?, Statement.operands, word,
      fixed_mem_ownWords]
  | closeConditional line => simp [Statement.code]
  | openLoop line counter start test step =>
    have word := operationWord_mem_ownWords supported.2.2.2
    have stepping : (advanceInstr m counter step).Draws m
        (Statement.openLoop line counter start test step).operands := by
      refine (draws_advanceInstr supported.1 counter).mono ?_
      simp only [Statement.operands]
      exact List.cons_subset_cons _ fun arg harg => by simp [harg]
    simp only [Statement.code, List.forall_mem_cons]
    refine ⟨?_, ?_, stepping, ?_, ?_⟩ <;>
      simp [Instr.Draws, Instr.plain, Instr.jumpTo, Instr.jumpTo?, Statement.operands, word,
        fixed_mem_ownWords]
  | closeLoop line =>
    simp [Statement.code, Instr.Draws, Instr.jumpTo?, fixed_mem_ownWords]
  | print value device =>
    simp [Statement.code, Instr.Draws, Instr.plain, Statement.operands]

/-! ### The arguments of compiled code -/

/-- The generator's own words, with the standard table, are plain. There are finitely many, so
they are looked at one by one. -/
theorem isPlainWord_of_mem_ownWords {word : String} (h : word ∈ Mnemonics.standard.ownWords) :
    IsPlainWord word.toList := by
  revert word
  decide

/-- An argument of compiled code is the text of a token, or one of the generator's own words. What
is known of all tokens of a source is known of the arguments in this way. -/
theorem token_or_ownWord_of_compileCode {v : Vocabulary} {m : Mnemonics} {source : String}
    {code : List Instr} (h : (compileCode v m source).result = .ok code) {i : Instr}
    (hi : i ∈ code) {arg : String} (harg : arg ∈ i.args) :
    (∃ statements, Token.parse v source = .ok statements ∧
      ∃ tokens ∈ statements, ∃ t ∈ tokens, t.text = arg) ∨ arg ∈ m.ownWords := by
  obtain ⟨statements, hparse, hnone, rfl⟩ := generate_of_compileCode h
  obtain ⟨ss, g, hread, laid, -, hgenerate⟩ := laid_of_generate hnone
  rw [hgenerate, Generator.append, laid.code] at hi
  rcases List.mem_append.mp hi with hi | hi
  · obtain ⟨k, s, hs, hcode⟩ := exists_of_mem_layFrom hi
    have mem := List.mem_of_getElem? hs
    have drawn := Statement.draws_code (laid.supported s mem) i hcode arg harg
    refine drawn.imp_left fun hoperand => ?_
    obtain ⟨tokens, htokens, hstatement⟩ := exists_of_mem_mapM hread mem
    exact ⟨statements, hparse, tokens, htokens,
      Statement.exists_token_of_mem_operands hstatement arg hoperand⟩
  · -- The instruction that ends the program has no arguments.
    rw [List.mem_singleton.mp hi] at harg
    cases harg

/-- The arguments of compiled code are pieces, and none is empty. This is what they need in order
to be found again as words. -/
theorem isPiece_of_compileCode {source : String} {code : List Instr}
    (h : (compileCode .standard .standard source).result = .ok code) {i : Instr} (hi : i ∈ code)
    {arg : String} (harg : arg ∈ i.args) : arg.toList ≠ [] ∧ IsPiece arg.toList := by
  rcases token_or_ownWord_of_compileCode h hi harg with
    ⟨statements, hparse, tokens, htokens, t, ht, rfl⟩ | hown
  · exact isPiece_of_parse hparse htokens ht
  · have plain := isPlainWord_of_mem_ownWords hown
    exact ⟨plain.1, .solid plain.2⟩

/-- The code of a source text that compiles is finished: its jumps stay in the program, and it
ends with a halt. -/
theorem finished_of_compileCode {v : Vocabulary} {m : Mnemonics} {source : String}
    {code : List Instr} (h : (compileCode v m source).result = .ok code) : Finished m code := by
  obtain ⟨statements, -, hnone, rfl⟩ := generate_of_compileCode h
  exact finished_of_generate hnone

/-- The operation and the target of an instruction in finished code. These are the parts of
`Instr.Legible` that do not speak of the arguments. -/
theorem Finished.parts {m : Mnemonics} {code : List Instr} (h : Finished m code) {i : Instr}
    (hi : i ∈ code) :
    i.opcode ∈ Opcode.known ∧ (i.opcode ≠ .jump → i.target = none) ∧
      (i.opcode = .jump →
        i.args ≠ [] ∧ ∃ target : Nat, i.target = some (target : Int) ∧ target < code.length) := by
  obtain ⟨body, rfl, fits⟩ := h
  rcases List.mem_append.mp hi with hi | hi
  · have length : (body ++ [Instr.plain .halt []]).length = body.length + 1 := by simp
    have form := fits i hi
    refine ⟨?_, ?_, fun hjump => ⟨?_, ?_⟩⟩
    · cases form <;> simp [Opcode.known, Instr.plain, Instr.jumpTo]
    · cases form <;> simp [Instr.plain, Instr.jumpTo]
    · cases form <;> exact List.cons_ne_nil _ _
    · obtain ⟨target, htarget, inside⟩ := form.target hjump
      exact ⟨target, htarget, by omega⟩
  · rw [List.mem_singleton.mp hi]
    refine ⟨by decide, fun _ => rfl, fun hjump => ?_⟩
    cases hjump

/-- Finished code has a text if its addresses can be written. No other part of an instruction can
be refused. -/
theorem Finished.exists_encode {m : Mnemonics} {code : List Instr} (h : Finished m code)
    (short : code.length ≤ Nat.pow 10 digitLimit) : ∃ text, encode code = .ok text := by
  refine Tickscript.exists_encode fun i hi => exists_render fun hjump => ?_
  obtain ⟨-, target, htarget, inside⟩ := (h.parts hi).2.2 hjump
  exact ⟨target, htarget, by omega⟩

/-- A target that is written can be written. So of code that has a text no bound on its length has
to be assumed. -/
theorem natAbs_lt_of_render {i : Instr} {line : String} {n : Int} (h : i.render = .ok line)
    (hjump : i.opcode = .jump) (htarget : i.target = some n) :
    n.natAbs < Nat.pow 10 digitLimit := by
  by_contra hlarge
  have refused : writeInteger n = .error .tooLongToWrite := by
    rw [writeInteger, if_pos (Nat.le_of_not_lt hlarge)]
  rw [Instr.render, if_pos hjump, htarget] at h
  simp only [refused] at h
  cases h

/-- The instructions of a compiled program that has a text are legible. The operations come from
the layout of the code and the arguments from the source. -/
theorem legible_of_compileCode {source : String} {code : List Instr}
    (h : (compileCode .standard .standard source).result = .ok code) {text : String}
    (htext : encode code = .ok text) : ∀ i ∈ code, i.Legible := by
  intro i hi
  obtain ⟨known, plain, jump⟩ := (finished_of_compileCode h).parts hi
  -- The program has a text, so each of its instructions has.
  obtain ⟨line, hline⟩ : ∃ line, i.render = .ok line := by
    cases hlines : renderAll code with
    | error fault =>
      rw [encode, hlines] at htext
      cases htext
    | ok lines => exact exists_of_mapM_eq_ok hlines hi
  refine ⟨known, readable_of_pieces fun w hw => ?_, plain, fun hjump => ?_⟩
  · obtain ⟨arg, harg, rfl⟩ := List.mem_map.mp hw
    exact isPiece_of_compileCode h hi harg
  · obtain ⟨ne, target, htarget, -⟩ := jump hjump
    exact ⟨ne, target, htarget, natAbs_lt_of_render hline hjump htarget⟩

/-! ### Which compiled programs are read back -/

/-- No literal among the arguments of a program holds a line break. Other arguments never do. -/
def LiteralsOnOneLine (code : List Instr) : Prop :=
  ∀ i ∈ code, ∀ arg ∈ i.args, isLiteralText arg.toList = true →
    ∀ c ∈ arg.toList, isLineBreak c = false

/-- The arguments of a program can be looked through, so the condition can be decided for each
program. -/
instance (code : List Instr) : Decidable (LiteralsOnOneLine code) :=
  decidable_of_iff (code.all fun i => i.args.all fun arg =>
      !isLiteralText arg.toList || arg.toList.all fun c => !isLineBreak c) <| by
    simp only [LiteralsOnOneLine, List.all_eq_true, Bool.or_eq_true, Bool.not_eq_true',
      ← Bool.not_eq_true, imp_iff_not_or]

/-- A program that is read back from its text. It has a text, and the text is read as this
program. -/
def Faithful (code : List Instr) : Prop :=
  ∃ text, encode code = .ok text ∧ decode text = .ok code

/-- The text of a compiled program is read as the program exactly if each literal is on one line.
One direction holds of every program that was read, the other one needs the pieces. -/
theorem decode_eq_ok_iff {source : String} {code : List Instr}
    (h : (compileCode .standard .standard source).result = .ok code) {text : String}
    (htext : encode code = .ok text) : decode text = .ok code ↔ LiteralsOnOneLine code := by
  constructor
  · intro hdecode i hi arg harg _
    exact (legible_of_decode hdecode i hi).2 arg harg
  · intro oneLine
    have both : ∀ i ∈ code, i.Legible ∧ i.OneLine := by
      intro i hi
      refine ⟨legible_of_compileCode h htext i hi, fun arg harg => ?_⟩
      exact (isPiece_of_compileCode h hi harg).2.not_isLineBreak (oneLine i hi arg harg)
    obtain ⟨written, hwritten, hdecode⟩ := exists_text_of_legible both
    rw [htext] at hwritten
    cases hwritten
    exact hdecode

/-! ### Literals reach the code -/

/-- A source text that prints a literal. The device is the same for all literals. -/
def printing (body : List Char) : String :=
  String.ofList ("print(".toList ++ '"' :: (body ++ ['"', ' ', 'd', ')']))

/-- The lexemes of such a source. The line of the last one depends on the newlines in the
literal. -/
theorem scan_printing {body : List Char} (closed : '"' ∉ body) :
    ∃ line, Lexeme.scan (printing body) =
      [⟨"print(".toList, 1⟩, ⟨'"' :: body ++ ['"'], 1⟩, ⟨"d)".toList, line⟩] := by
  -- rest) = :: The keyword is found whatever follows the quote.
  have opening : ∀ rest, Lexeme.scanFrom 1 ("print(".toList ++ '"' :: rest) =
      ⟨"print(".toList, 1⟩ :: Lexeme.scanFrom 1 ('"' :: rest) := by
    intro rest
    have found : lexemeAt? 'p' ("rint(".toList ++ '"' :: rest) =
        some ("print(".toList, '"' :: rest) := rfl
    exact scanFrom_of_some found
  have device : ∀ line, Lexeme.scanFrom line [' ', 'd', ')'] = [⟨"d)".toList, line⟩] := by
    intro line
    have found : lexemeAt? 'd' [')'] = some ("d)".toList, []) := by decide
    rw [scanFrom_space, scanFrom_of_some found, Lexeme.scanFrom]
  have chars : (printing body).toList =
      "print(".toList ++ '"' :: (body ++ ['"', ' ', 'd', ')']) := String.toList_ofList
  refine ⟨1 + ('"' :: body ++ ['"']).count '\n', ?_⟩
  rw [Lexeme.scan, chars, opening,
    scanFrom_of_some (lexemeAt?_literal closed [' ', 'd', ')']), device]

/-- A text between quotes is a value. It cannot be a keyword or an operator, because none of them
starts with a quote. -/
theorem ofText?_literal {body : List Char} (closed : '"' ∉ body) :
    TokenKind.ofText? .standard (String.ofList ('"' :: body ++ ['"'])) = some .value := by
  have reserved : ∀ word ∈ Vocabulary.standard.keywords ++ Vocabulary.standard.operators,
      word.toList.head? ≠ some '"' := by decide
  have notReserved : String.ofList ('"' :: body ++ ['"']) ∉
      Vocabulary.standard.keywords ++ Vocabulary.standard.operators := by
    intro mem
    exact reserved _ mem (by rw [String.toList_ofList]; rfl)
  rw [List.mem_append, not_or] at notReserved
  have notName : isNameText ('"' :: body ++ ['"']) = false := rfl
  have value : isValueText ('"' :: body ++ ['"']) = true := by
    rw [isValueText, isLiteralText_literal closed, Bool.or_true]
  simp only [TokenKind.ofText?, List.contains_eq_mem, notReserved.1, notReserved.2,
    String.toList_ofList, notName, value]
  rfl

/-- The tokens of a source that prints a literal: one statement of three tokens. -/
theorem parse_printing {body : List Char} (closed : '"' ∉ body) :
    ∃ line : Nat, Token.parse .standard (printing body) =
      .ok [[⟨.keyword, "print(", 1⟩, ⟨.value, String.ofList ('"' :: body ++ ['"']), 1⟩,
        ⟨.name, "d", line⟩]] := by
  obtain ⟨line, hscan⟩ := scan_printing closed
  refine ⟨line, ?_⟩
  have statements : Fragment.statements .standard (printing body) =
      [[⟨"print(", 1⟩, ⟨String.ofList ('"' :: body ++ ['"']), 1⟩, ⟨"d", line⟩]] := by
    -- Only the last of the three lexemes has a terminator.
    have opening : trim "print(".toList = "print(".toList := by decide
    have device : trim "d)".toList = "d)".toList := by decide
    have opens : Vocabulary.standard.isTerminated "print(".toList = false := by decide
    have closes : Vocabulary.standard.isTerminated "d)".toList = true := by decide
    rw [Fragment.statements, hscan]
    simp only [Fragment.gather, opening, device, trim_literal, opens,
      isTerminated_literal, closes]
    rfl
  have keyword : TokenKind.ofText? .standard "print(" = some .keyword := by decide
  have name : TokenKind.ofText? .standard "d" = some .name := by decide
  rw [Token.parse, statements]
  simp only [List.mapM_cons, List.mapM_nil, Token.ofFragment, keyword,
    ofText?_literal closed, name]
  rfl

/-- A literal arrives in the code as it stands, whatever characters are between its quotes. So
there are compiled programs with line breaks in their literals. -/
theorem compileCode_printing (body : List Char) (closed : '"' ∉ body) :
    (compileCode .standard .standard (printing body)).result =
      .ok [.plain .print [String.ofList ('"' :: body ++ ['"'])], .plain .printflush ["d"],
        .plain .halt []] := by
  obtain ⟨line, hparse⟩ := parse_printing closed
  rw [compileCode, hparse]
  rfl

/-! ### Faithful programs -/

/-- **Program text is faithful exactly when no literal spans a line.** A source text that compiles
gives code that is read back from its text exactly if no literal in the code holds a line break.
The bound on the length is that of writing an address; longer code, if it has a text at all, obeys
the same rule. The exception is a real one: every text without quotes is between the quotes of a
literal in some compiled code. -/
theorem faithful_iff_of_compileCode :
    (∀ (source : String) (code : List Instr),
      (compileCode .standard .standard source).result = .ok code →
        (code.length ≤ Nat.pow 10 digitLimit → (Faithful code ↔ LiteralsOnOneLine code)) ∧
          ∀ text, encode code = .ok text → (decode text = .ok code ↔ LiteralsOnOneLine code)) ∧
      ∀ body : List Char, '"' ∉ body → ∃ source code,
        (compileCode .standard .standard source).result = .ok code ∧
          ∃ i ∈ code, String.ofList ('"' :: body ++ ['"']) ∈ i.args := by
  refine ⟨fun source code h => ⟨fun short => ?_, fun text htext => decode_eq_ok_iff h htext⟩,
    fun body closed => ?_⟩
  · obtain ⟨text, htext⟩ := (finished_of_compileCode h).exists_encode short
    constructor
    · rintro ⟨written, hwritten, hdecode⟩
      exact (decode_eq_ok_iff h hwritten).mp hdecode
    · intro oneLine
      exact ⟨text, htext, (decode_eq_ok_iff h htext).mpr oneLine⟩
  · exact ⟨printing body, _, compileCode_printing body closed, _, List.mem_cons_self,
      List.mem_singleton.mpr rfl⟩

/-- A literal with spaces stands on one line, and the program is read back. With a line break in
it the program is not: the text has two lines where there was one instruction. -/
theorem faithful_iff_of_printed_literals :
    (∃ code, (compileCode .standard .standard "print(\"a  b\" d)").result = .ok code ∧
      Faithful code) ∧
    ∃ code, (compileCode .standard .standard "print(\"a\nb\" d)").result = .ok code ∧
      ¬Faithful code := by
  have plain : (compileCode .standard .standard "print(\"a  b\" d)").result =
      .ok [.plain .print ["\"a  b\""], .plain .printflush ["d"], .plain .halt []] :=
    compileCode_printing ['a', ' ', ' ', 'b'] (by decide)
  have broken : (compileCode .standard .standard "print(\"a\nb\" d)").result =
      .ok [.plain .print ["\"a\nb\""], .plain .printflush ["d"], .plain .halt []] :=
    compileCode_printing ['a', '\n', 'b'] (by decide)
  have short : 3 ≤ Nat.pow 10 digitLimit :=
    Nat.le_trans (by decide : 3 ≤ Nat.pow 10 1) (pow_ten_mono (by decide))
  constructor
  · exact ⟨_, plain, ((faithful_iff_of_compileCode.1 _ _ plain).1 short).mpr (by decide)⟩
  · refine ⟨_, broken, fun faithful => ?_⟩
    have oneLine := ((faithful_iff_of_compileCode.1 _ _ broken).1 short).mp faithful
    exact absurd oneLine (by decide)

end Tickscript
