import BinderIdl.Java.StatementPrinter
import BinderIdl.Proofs.Java.Strings
import BinderIdl.Proofs.Text.Lines

namespace BinderIdl.Java

theorem indentation_add (first second : Nat) :
    indentation (first + second) = indentation first ++ indentation second := by
  rw [indentation, indentation, indentation, Nat.mul_add,
    ← List.replicate_append_replicate, String.ofList_append]

@[simp] theorem unbroken_indentation (depth : Nat) :
    Unbroken (indentation depth) := by
  simp [Unbroken, indentation, List.mem_replicate]

mutual
theorem Stmt.lines_add (margin depth : Nat) :
    (stmt : Stmt) → Stmt.lines (margin + depth) stmt =
      (Stmt.lines depth stmt).map (indentation margin ++ ·)
  | .expr _ | .declareUnset _ | .declare _ _ | .assign _ _ => by
      simp [Stmt.lines, indentation_add, String.append_assoc]
  | .ifThen condition body => by
      simp [Stmt.lines, indentation_add, String.append_assoc, Nat.add_assoc,
        Block.lines_add margin (depth + 1) body]
  | .ifElse condition yes no => by
      simp [Stmt.lines, indentation_add, String.append_assoc, Nat.add_assoc,
        Block.lines_add margin (depth + 1) yes,
        Block.lines_add margin (depth + 1) no]
  | .countUp index count body => by
      simp [Stmt.lines, indentation_add, String.append_assoc, Nat.add_assoc,
        Block.lines_add margin (depth + 1) body]
  | .forEach item collection body => by
      simp [Stmt.lines, indentation_add, String.append_assoc, Nat.add_assoc,
        Block.lines_add margin (depth + 1) body]

theorem Block.lines_add (margin depth : Nat) :
    (block : List Stmt) → Block.lines (margin + depth) block =
      (Block.lines depth block).map (indentation margin ++ ·)
  | [] => rfl
  | stmt :: rest => by
      rw [Block.lines, Block.lines, List.map_append,
        stmt.lines_add margin depth, Block.lines_add margin depth rest]
end

mutual
/-- Every line end of a text is one that the printer put there. -/
theorem Stmt.unbroken_lines : (stmt : Stmt) →
    ∀ depth, AllUnbroken stmt.strings → AllUnbroken (Stmt.lines depth stmt)
  | .expr value, depth, unbroken => by
      simp +decide [Stmt.lines, value.unbroken_of_strings unbroken]
  | .declareUnset v, depth, unbroken => by
      simp only [Stmt.strings, allUnbroken_cons] at unbroken
      simp +decide [Stmt.lines, unbroken]
  | .declare v value, depth, unbroken => by
      simp only [Stmt.strings, allUnbroken_cons] at unbroken
      obtain ⟨type, name, inside⟩ := unbroken
      simp +decide [Stmt.lines, type, name, value.unbroken_of_strings inside]
  | .assign target value, depth, unbroken => by
      simp only [Stmt.strings, allUnbroken_append] at unbroken
      simp +decide [Stmt.lines, target.unbroken_of_strings unbroken.1,
        value.unbroken_of_strings unbroken.2]
  | .ifThen condition body, depth, unbroken => by
      simp only [Stmt.strings, allUnbroken_append] at unbroken
      simp +decide [Stmt.lines, condition.unbroken_of_strings unbroken.1,
        Block.unbroken_lines body (depth + 1) unbroken.2]
  | .ifElse condition yes no, depth, unbroken => by
      simp only [Stmt.strings, allUnbroken_append] at unbroken
      simp +decide [Stmt.lines, condition.unbroken_of_strings unbroken.1.1,
        Block.unbroken_lines yes (depth + 1) unbroken.1.2,
        Block.unbroken_lines no (depth + 1) unbroken.2]
  | .countUp index count body, depth, unbroken => by
      simp only [Stmt.strings, allUnbroken_cons, allUnbroken_append] at unbroken
      obtain ⟨type, name, counted, inside⟩ := unbroken
      simp +decide [Stmt.lines, type, name, count.unbroken_of_strings counted,
        Block.unbroken_lines body (depth + 1) inside]
  | .forEach item collection body, depth, unbroken => by
      simp only [Stmt.strings, allUnbroken_cons, allUnbroken_append] at unbroken
      obtain ⟨type, name, visited, inside⟩ := unbroken
      simp +decide [Stmt.lines, type, name,
        collection.unbroken_of_strings visited,
        Block.unbroken_lines body (depth + 1) inside]

theorem Block.unbroken_lines : (block : List Stmt) →
    ∀ depth,
      AllUnbroken (Block.strings block) → AllUnbroken (Block.lines depth block)
  | [], depth, _ => allUnbroken_nil
  | stmt :: rest, depth, unbroken => by
      obtain ⟨here, later⟩ := allUnbroken_append.mp unbroken
      exact allUnbroken_append.mpr
        ⟨stmt.unbroken_lines depth here, Block.unbroken_lines rest depth later⟩
end

theorem Block.print_eq_unlines (depth : Nat) (block : Block) :
    Block.print depth block = Text.unlines (Block.lines depth block) := rfl

namespace Printer

/-- A printer that has written some more lines. -/
def wrote (p : Printer) (ls : List String) :
    Printer := ⟨p.depth, p.output ++ Text.unlines ls⟩

@[simp] theorem depth_wrote (p : Printer) (ls : List String) :
    (p.wrote ls).depth = p.depth := rfl

theorem line_eq_wrote (p : Printer) (text : String) :
    p.line text = p.wrote [indentation p.depth ++ text] := by
  simp [line, wrote, Text.unlines, String.append_assoc]

theorem wrote_wrote (p : Printer) (first second : List String) :
    (p.wrote first).wrote second = p.wrote (first ++ second) := by
  simp [wrote, Text.unlines_append, String.append_assoc]

theorem nested_eq_wrote (p : Printer) {body : Block}
    (printed : ∀ q : Printer, q.block body = q.wrote (Block.lines q.depth body))
    (ls : List String) :
    ((p.wrote ls).indent.block body).dedent =
      p.wrote (ls ++ Block.lines (p.depth + 1) body) := by
  rw [printed, ← wrote_wrote]
  rfl

mutual
/-- A printer that is given a statement writes its lines and is at the same
depth again. -/
theorem statement_eq_wrote : (stmt : Stmt) → ∀ p : Printer,
    p.statement stmt = p.wrote (Stmt.lines p.depth stmt)
  | .expr _, p | .declareUnset _, p | .declare _ _, p | .assign _ _, p => by
      simp only [statement, line_eq_wrote, Stmt.lines, String.append_assoc]
  | .ifThen condition body, p => by
      simp only [statement, line_eq_wrote,
        nested_eq_wrote p (block_eq_wrote body), depth_wrote, wrote_wrote,
        Stmt.lines, String.append_assoc, List.cons_append, List.nil_append]
  | .ifElse condition yes no, p => by
      simp only [statement, line_eq_wrote, nested_eq_wrote p
        (block_eq_wrote yes), nested_eq_wrote p (block_eq_wrote no),
        depth_wrote, wrote_wrote, Stmt.lines, String.append_assoc,
        List.append_assoc, List.cons_append, List.nil_append]
  | .countUp index count body, p => by
      simp only [statement, line_eq_wrote,
        nested_eq_wrote p (block_eq_wrote body), depth_wrote, wrote_wrote,
        Stmt.lines, String.append_assoc, List.cons_append, List.nil_append]
  | .forEach item collection body, p => by
      simp only [statement, line_eq_wrote,
        nested_eq_wrote p (block_eq_wrote body), depth_wrote, wrote_wrote,
        Stmt.lines, String.append_assoc, List.cons_append, List.nil_append]

theorem block_eq_wrote : (code : List Stmt) → ∀ p : Printer,
    p.block code = p.wrote (Block.lines p.depth code)
  | [], p => by simp [block, wrote, Block.lines, Text.unlines]
  | stmt :: rest, p => by
      rw [block, statement_eq_wrote stmt p, block_eq_wrote rest, depth_wrote,
        wrote_wrote, Block.lines]
end

theorem atDepth_wrote (depth : Nat) (ls : List String) :
    (atDepth depth).wrote ls = ⟨depth, Text.unlines ls⟩ := by
  simp [atDepth, wrote]

theorem block_atDepth (depth : Nat) (code : Block) :
    (atDepth depth).block code = ⟨depth, Block.print depth code⟩ := by
  rw [block_eq_wrote, atDepth_wrote]
  rfl

theorem wrote_lines (p : Printer) (code : Block) :
    p.wrote (Block.lines p.depth code) =
      ⟨p.depth, p.output ++ Block.print p.depth code⟩ := rfl

theorem foldl_block (blocks : List Block) (p : Printer) :
    blocks.foldl block p = ⟨p.depth,
      p.output ++ String.join (blocks.map (Block.print p.depth))⟩ := by
  induction blocks generalizing p with
  | nil => simp
  | cons code rest induction =>
      rw [List.foldl_cons, induction, block_eq_wrote, wrote_lines,
        List.map_cons, String.join_cons, String.append_assoc]

end Printer

theorem Block.print_eq_shift (depth : Nat) {code : Block}
    (unbroken : AllUnbroken (Block.strings code)) :
    Block.print depth code =
      Text.shift (indentation depth) (Block.print 0 code) := by
  rw [print_eq_unlines, print_eq_unlines, Text.shift_unlines _
    (unbroken_lines code 0 unbroken), ← lines_add depth 0 code, Nat.add_zero]

/-- The text of a block at some depth is the one at depth zero with four blanks
for each level in front of every line, if its strings end no lines. Whatever a
printer is given, blocks one after the other or a statement, however deeply
nested: it appends the texts that these have alone at its depth, and is at this
depth again. -/
theorem printing_is_uniform (depth : Nat) (code : Block)
    (unbroken : AllUnbroken (Block.strings code)) :
    let alone := fun depth code => ((Printer.atDepth depth).block code).output
    alone depth code = Block.print depth code ∧ alone depth code = Text.shift
      (String.ofList (List.replicate (4 * depth) ' ')) (alone 0 code) ∧
    (∀ (p : Printer) (blocks : List Block), blocks.foldl Printer.block p =
      ⟨p.depth, p.output ++ String.join (blocks.map (alone p.depth))⟩) ∧
    ∀ (p : Printer) (stmt : Stmt),
      p.statement stmt = ⟨p.depth, p.output ++ alone p.depth [stmt]⟩ := by
  intro alone
  have printed (depth : Nat) (code : Block) :
      alone depth code = Block.print depth code :=
    congrArg Printer.output (Printer.block_atDepth depth code)
  refine ⟨printed depth code, ?_, fun p blocks => ?_, fun p stmt => ?_⟩
  · rw [printed, printed]
    exact Block.print_eq_shift depth unbroken
  · rw [Printer.foldl_block, funext (printed p.depth)]
  · rw [printed, ← Printer.wrote_lines, Printer.statement_eq_wrote, Block.lines,
      Block.lines, List.append_nil]

/-- Two blocks on one printer, the first one with a loop in a loop and
branches inside. -/
theorem printing_is_uniform_nested :
    let item : Variable := ⟨"String", "name"⟩
    let inner : Stmt :=
      .ifElse item.isNotNull [.expr (item.call "trim" [])] [.declareUnset item]
    let first : Block :=
      [.countUp ⟨"int", "i"⟩ (.literal "n")
        [.forEach item (.literal "names") [inner]]]
    let second : Block := [.expr (.literal "done")]
    let alone := fun depth code => ((Printer.atDepth depth).block code).output
    AllUnbroken (Block.strings first) ∧
    alone 0 [inner] =
      "if ((name != null)) \x7b\n    name.trim();\n\x7d\nelse \x7b\n    String name;\n\x7d\n" ∧
    alone 2 first =
      Text.shift (String.ofList (List.replicate 8 ' ')) (alone 0 first) ∧
    [first, second].foldl Printer.block (Printer.atDepth 2) =
      ⟨2, "" ++ String.join [alone 2 first, alone 2 second]⟩ := by
  intro item inner first second alone
  have unbroken : AllUnbroken (Block.strings first) := by decide +kernel
  obtain ⟨_, shifted, all, _⟩ := printing_is_uniform 2 first unbroken
  exact ⟨unbroken, by decide +kernel, shifted,
    all (Printer.atDepth 2) [first, second]⟩

end BinderIdl.Java
