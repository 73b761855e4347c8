import InlineIcons.Proofs.Program.Block

/-! Written steps read back. A step is said to read as some blocks if it writes whole lines which, wherever
they stand, add these blocks to what is read. -/
namespace InlineIcons

/-- A writer holds whole lines beyond an earlier one, and reading them leads from one nesting to another. -/
def Adds (w later : CodeWriter) (n m : Nesting) : Prop :=
  ∃ lines : List (List Char), later.text.toList = w.text.toList ++ lines.flatMap (· ++ ['\n']) ∧
    (∀ l ∈ lines, '\n' ∉ l) ∧ lines.foldlM Nesting.feed n = some m

namespace Adds

variable {w v u : CodeWriter} {n m k : Nesting}

theorem refl (w : CodeWriter) (n : Nesting) : Adds w w n n := ⟨[],by simp,nofun,rfl⟩

theorem trans (first : Adds w v n m) (second : Adds v u m k) : Adds w u n k := by
  obtain ⟨lines,text,single,read⟩ := first
  obtain ⟨lines',text',single',read'⟩ := second
  refine ⟨lines ++ lines',?_,?_,?_⟩
  · rw [text',text,List.flatMap_append,List.append_assoc]
  · intro l member
    exact (List.mem_append.mp member).elim (single l) (single' l)
  · rw [List.foldlM_append,read]
    exact read'

theorem line {text : String} (single : '\n' ∉ text.toList) (fed : n.feed text.toList = some m) :
    Adds w (w.line text) n m := by
  refine ⟨[List.replicate (4 * w.level) ' ' ++ text.toList],?_,?_,?_⟩
  · simp [CodeWriter.line,CodeWriter.startLine,CodeWriter.endLine,CodeWriter.append,CodeWriter.indentation]
  · intro l member
    rw [List.mem_singleton.mp member,List.mem_append,not_or]
    exact ⟨fun blank => by simp [List.mem_replicate] at blank,single⟩
  · rw [List.foldlM_cons,Nesting.feed_indented,fed]
    rfl

theorem emptyLine : Adds w w.endLine n n :=
  ⟨[[]],by simp [CodeWriter.endLine,CodeWriter.append],by simp,rfl⟩

end Adds

namespace Step

/-- A step that reads as the given blocks. -/
def Reads (s : Step) (blocks : List Block) : Prop :=
  ∀ (w : CodeWriter) (n : Nesting), (w.step s).left = false ∧ (w.step s).writer.level = w.level ∧
    Adds w (w.step s).writer n (n.add blocks)

def ReadAs (steps : List Step) (blocks : List Block) : Prop :=
  ∀ (w : CodeWriter) (n : Nesting), (w.run steps).left = false ∧ (w.run steps).writer.level = w.level ∧
    Adds w (w.run steps).writer n (n.add blocks)

theorem readAs_nil : ReadAs [] [] := fun w n => ⟨rfl,rfl,(n.add_nil).symm ▸ Adds.refl w n⟩

theorem readAs_cons {s : Step} {steps : List Step} {blocks more : List Block} (first : Reads s blocks)
    (rest : ReadAs steps more) : ReadAs (s :: steps) (blocks ++ more) := by
  intro w n
  obtain ⟨stays,level,added⟩ := first w n
  obtain ⟨stays',level',added'⟩ := rest (w.step s).writer (n.add blocks)
  rw [CodeWriter.run]
  simp only [stays,Bool.false_eq_true,if_false]
  refine ⟨stays',level'.trans level,?_⟩
  rw [← Nesting.add_add]
  exact added.trans added'

theorem run_append {w : CodeWriter} {steps : List Step} (stays : (w.run steps).left = false)
    (more : List Step) : (w.run (steps ++ more)).left = ((w.run steps).writer.run more).left ∧
      (w.run (steps ++ more)).writer = ((w.run steps).writer.run more).writer := by
  induction steps generalizing w with
  | nil => exact ⟨rfl,rfl⟩
  | cons s steps ih =>
    rw [CodeWriter.run] at stays
    rw [List.cons_append,CodeWriter.run,CodeWriter.run]
    split at stays
    · next left => simp [left] at stays
    · next left =>
      simp only [left,Bool.false_eq_true,if_false]
      exact ih stays

theorem readAs_append {steps steps' : List Step} {blocks blocks' : List Block} (first : ReadAs steps blocks)
    (second : ReadAs steps' blocks') : ReadAs (steps ++ steps') (blocks ++ blocks') := by
  intro w n
  obtain ⟨stays,level,added⟩ := first w n
  obtain ⟨stays',level',added'⟩ := second (w.run steps).writer (n.add blocks)
  obtain ⟨left,writer⟩ := run_append stays steps'
  rw [left,writer,← Nesting.add_add]
  exact ⟨stays',level'.trans level,added.trans added'⟩

theorem readAs_one {s : Step} {blocks : List Block} (reads : Reads s blocks) : ReadAs [s] blocks := by
  simpa using readAs_cons reads readAs_nil

/-- Steps that are alike, each of which reads as one block. -/
theorem readAs_map {α : Type} {step : α → Step} {block : α → Block} {as : List α}
    (each : ∀ a ∈ as, Reads (step a) [block a]) : ReadAs (as.map step) (as.map block) := by
  induction as with
  | nil => exact readAs_nil
  | cons a as ih =>
    obtain ⟨first,rest⟩ := List.forall_mem_cons.mp each
    exact readAs_cons first (ih rest)

theorem reads_line {text : String} (begins : LineKind.begins text.toList) (ends : LineKind.ends text.toList)
    (single : '\n' ∉ text.toList) : Reads (.line text) [.line text.toList] :=
  fun _ _ => ⟨rfl,rfl,Adds.line single (Nesting.feed_text begins ends)⟩

theorem reads_comment {text : String} (comment : ['/','/'] <+: text.toList) (single : '\n' ∉ text.toList) :
    Reads (.line text) [] := by
  intro w n
  rw [n.add_nil]
  exact ⟨rfl,rfl,Adds.line single (Nesting.feed_comment comment)⟩

theorem reads_emptyLine : Reads .emptyLine [] :=
  fun _ n => ⟨rfl,rfl,(n.add_nil).symm ▸ Adds.emptyLine⟩

/-- A scope is read as its header and what stands in it: it is closed where it was opened. -/
theorem reads_scope {header : String} {body : List Step} {blocks : List Block}
    (begins : LineKind.begins header.toList) (single : '\n' ∉ header.toList)
    (inner : ReadAs body blocks) : Reads (.scope header body) [.scope header.toList blocks] := by
  intro w n
  have text : (CodeWriter.opening header).toList = header.toList ++ [' ','\x7b'] := by
    have filled : header.isEmpty = false := by
      rw [← Bool.not_eq_true,String.isEmpty_iff]
      rintro rfl
      simp [LineKind.begins] at begins
    simp [CodeWriter.opening,filled]
  have fed : n.feed (CodeWriter.opening header).toList = some ⟨(header.toList,n.inner) :: n.outer,[]⟩ := by
    rw [text]
    exact Nesting.feed_opening begins
  have opened : Adds w (w.openScope header) n ⟨(header.toList,n.inner) :: n.outer,[]⟩ :=
    Adds.line (by rw [text]; simp [single]) fed
  obtain ⟨stays,level,added⟩ := inner (w.openScope header) ⟨(header.toList,n.inner) :: n.outer,[]⟩
  refine ⟨stays,?_,?_⟩
  · have closed : (w.step (.scope header body)).writer.level =
        ((w.openScope header).run body).writer.level - 1 := rfl
    rw [closed,level]
    rfl
  · have closed : Adds ((w.openScope header).run body).writer (w.step (.scope header body)).writer
        (Nesting.add ⟨(header.toList,n.inner) :: n.outer,[]⟩ blocks)
        (n.add [.scope header.toList blocks]) :=
      Adds.line (w := { ((w.openScope header).run body).writer with level := _ }) (by decide)
        (Nesting.feed_close ..)
    exact (opened.trans added).trans closed

theorem reads_indented {body : List Step} {blocks : List Block} (inner : ReadAs body blocks) :
    Reads (.indented body) blocks := by
  intro w n
  obtain ⟨stays,level,added⟩ := inner w.indent n
  refine ⟨stays,?_,added⟩
  have dedented : (w.step (.indented body)).writer.level = (w.indent.run body).writer.level - 1 := rfl
  rw [dedented,level]
  rfl

end Step

/-- What is written reads back. -/
theorem Block.read?_write {steps : List Step} {blocks : List Block} (reads : Step.ReadAs steps blocks) :
    Block.read? (CodeWriter.write steps) = some blocks := by
  obtain ⟨_,_,lines,text,single,read⟩ := reads .start .start
  have text : (CodeWriter.write steps).toList = lines.flatMap (· ++ ['\n']) := by
    simpa [CodeWriter.write,CodeWriter.start] using text
  rw [Block.read?,text,linesFrom_flatMap single,read]
  simp [Nesting.finish,Nesting.start,Nesting.add]

namespace CodeWriter

def blanks (level : Nat) : List Char := List.replicate (4 * level) ' '

mutual
def charsOf? (level : Nat) : Step → Option (List Char)
  | .append text => some text.toList
  | .line text => some (blanks level ++ (text.toList ++ ['\n']))
  | .emptyLine | .endLine => some ['\n']
  | .startLine => some (blanks level)
  | .scope header body => (chars? (level + 1) body).map fun inner =>
      blanks level ++ ((opening header).toList ++ '\n' :: (inner ++ (blanks level ++ ['\x7d','\n'])))
  | .indented body => chars? (level + 1) body
  | .leave => none

def chars? (level : Nat) : List Step → Option (List Char)
  | [] => some []
  | s :: rest => (charsOf? level s).bind fun cs => (chars? level rest).map (cs ++ ·)
end

/-- A run that goes through to its end has added these characters. -/
structure Gains (w : CodeWriter) (cs : List Char) (r : Run) : Prop where
  stays : r.left = false
  level : r.writer.level = w.level
  text : r.writer.text.toList = w.text.toList ++ cs

mutual
theorem gains_step {w : CodeWriter} {cs : List Char} :
    (s : Step) → charsOf? w.level s = some cs → Gains w cs (w.step s)
  | .append text, written => by
    obtain rfl := Option.some.inj written
    exact ⟨rfl,rfl,String.toList_append ..⟩
  | .line text, written => by
    obtain rfl := Option.some.inj written
    exact ⟨rfl,rfl,by simp [step,Run.one,line,startLine,endLine,append,indentation,blanks]⟩
  | .emptyLine, written | .endLine, written => by
    obtain rfl := Option.some.inj written
    exact ⟨rfl,rfl,String.toList_append ..⟩
  | .startLine, written => by
    obtain rfl := Option.some.inj written
    exact ⟨rfl,rfl,by simp [step,Run.one,startLine,append,indentation,blanks]⟩
  | .scope header body, written => by
    obtain ⟨inner,body',rfl⟩ := Option.map_eq_some_iff.mp written
    obtain ⟨stays,level,text⟩ := gains_run (w := w.openScope header) body body'
    have back : (w.step (.scope header body)).writer.level = w.level := by
      show ((w.openScope header).run body).writer.level - 1 = w.level
      rw [level]
      rfl
    refine ⟨stays,back,?_⟩
    show ((((w.openScope header).run body).writer.text ++
      indentation (w.step (.scope header body)).writer.level) ++ "\x7d" ++ "\n").toList = _
    rw [back,String.toList_append,String.toList_append,String.toList_append,text]
    simp [openScope,line,startLine,endLine,append,indentation,blanks]
  | .indented body, written => by
    obtain ⟨stays,level,text⟩ := gains_run (w := w.indent) body written
    refine ⟨stays,?_,text⟩
    show (w.indent.run body).writer.level - 1 = w.level
    rw [level]
    rfl

theorem gains_run {w : CodeWriter} {cs : List Char} :
    (steps : List Step) → chars? w.level steps = some cs → Gains w cs (w.run steps)
  | [], written => by
    obtain rfl := Option.some.inj written
    exact ⟨rfl,rfl,(List.append_nil _).symm⟩
  | s :: rest, written => by
    obtain ⟨first,here,written⟩ := Option.bind_eq_some_iff.mp written
    obtain ⟨more,behind,rfl⟩ := Option.map_eq_some_iff.mp written
    obtain ⟨stays,level,text⟩ := gains_step s here
    obtain ⟨stays',level',text'⟩ := gains_run (w := (w.step s).writer) rest (by rwa [level])
    rw [run]
    simp only [stays,Bool.false_eq_true,if_false]
    exact ⟨stays',level'.trans level,by rw [text',text,List.append_assoc]⟩
end

theorem toList_write {steps : List Step} {cs : List Char} (written : chars? 0 steps = some cs) :
    (write steps).toList = cs := (gains_run (w := start) steps written).text

end CodeWriter

end InlineIcons
