import InlineIcons.CodeWriter
import Mathlib.Data.List.TakeWhile

/-! Scopes close once, in whatever way their steps end. The steps are laid out in a row in which the end of a scope is a
token like its opening, and are carried out with a stack of what is open: each entry keeps the level outside of it, and
steps that leave close the entries of the stack, innermost first. -/
namespace InlineIcons.CodeWriter

/-- Steps in a row. What is opened without a header is an indentation without braces. -/
inductive Token where
  | text (indented : Bool) (text : String)
  | opening (header : Option String)
  | ending
  | leaving
  deriving DecidableEq, Repr

mutual
def layoutOf : Step → List Token
  | .append text => [.text false text]
  | .line text => [.text true (text ++ "\n")]
  | .emptyLine => [.text false "\n"]
  | .startLine => [.text true ""]
  | .endLine => [.text false "\n"]
  | .scope header body => .opening (some header) :: layout body ++ [.ending]
  | .indented body => .opening none :: layout body ++ [.ending]
  | .leave => [.leaving]

def layout : List Step → List Token
  | [] => []
  | s :: steps => layoutOf s ++ layout steps
end

/-- What happens to a writer, with the level at which it happens; that of a scope is the level outside of it. -/
inductive Change where
  | wrote (level : Nat) (text : String)
  | opened (level : Nat) (header : Option String)
  | closed (level : Nat) (braced : Bool)
  deriving DecidableEq, Repr

namespace Change

def before : Change → Nat
  | wrote k _ | opened k _ => k
  | closed k _ => k + 1

def after : Change → Nat
  | wrote k _ | closed k _ => k
  | opened k _ => k + 1

def text : Change → String
  | wrote _ text => text
  | opened _ none | closed _ false => ""
  | opened k (some header) =>
    indentation k ++ (if header = "" then "\x7b" else header ++ " \x7b") ++ "\n"
  | closed k true => indentation k ++ "\x7d" ++ "\n"

/-- A change takes place at its level, leads to the level after it, and appends its text to what is written. A closing
takes place one level further in, so never at level zero. -/
structure Leads (c : Change) (w next : CodeWriter) : Prop where
  here : w.level = c.before
  level : next.level = c.after
  text : next.text = w.text ++ c.text

end Change

/-- Changes one after another, with the writer after each of them, up to the last one. -/
inductive Follows : CodeWriter → List Change → List CodeWriter → CodeWriter → Prop
  | done (w : CodeWriter) : Follows w [] [] w
  | next {c : Change} {cs : List Change} {w v last : CodeWriter} {log : List CodeWriter} (leads : c.Leads w v)
    (rest : Follows v cs log last) : Follows w (c :: cs) (v :: log) last

/-- What is open, and the level outside of it. -/
structure Guard where
  level : Nat
  braced : Bool
  deriving DecidableEq, Repr

def Guard.closing (g : Guard) : Change := .closed g.level g.braced

/-- What was made so far, what is open, innermost first, and the level at hand. -/
structure Progress where
  made : List Change
  guards : List Guard
  level : Nat

def Progress.feed (p : Progress) : Token → Progress
  | .text indented text =>
    { p with made := p.made ++ [.wrote p.level ((if indented then indentation p.level else "") ++ text)] }
  | .opening header => ⟨p.made ++ [.opened p.level header],⟨p.level,header.isSome⟩ :: p.guards,p.level + 1⟩
  | .ending =>
    match p.guards with
    | [] => p
    | g :: guards => ⟨p.made ++ [g.closing],guards,g.level⟩
  | .leaving => p

/-- What some steps make at a level: what stands before the first one that leaves, if there is one, and then the closing
of all that is open, innermost first. -/
def carriedOut (k : Nat) (steps : List Step) : List Change :=
  let p := ((layout steps).takeWhile (· ≠ .leaving)).foldl Progress.feed ⟨[],[],k⟩
  p.made ++ p.guards.map Guard.closing

variable {w v u : CodeWriter} {log log' : List CodeWriter} {cs ds : List Change} {c : Change} {k : Nat}

theorem Follows.append (first : Follows w cs log v) (second : Follows v ds log' u) :
    Follows w (cs ++ ds) (log ++ log') u := by
  induction first with
  | done => exact second
  | next leads _ ih => exact .next leads (ih second)

theorem Follows.one (leads : c.Leads w v) : Follows w [c] [v] v := .next leads (.done v)

/-- Changes that begin and end at one level, and in which whatever is opened is closed at the level where it was
opened. -/
inductive Nested : Nat → List Change → Prop
  | none (k : Nat) : Nested k []
  | wrote {k : Nat} {cs : List Change} (text : String) (rest : Nested k cs) : Nested k (.wrote k text :: cs)
  | scope {k : Nat} {cs ds : List Change} (header : Option String) (inner : Nested (k + 1) cs) (rest : Nested k ds) :
    Nested k (.opened k header :: cs ++ .closed k header.isSome :: ds)

namespace Nested

theorem append (first : Nested k cs) (second : Nested k ds) : Nested k (cs ++ ds) := by
  induction first with
  | none => exact second
  | wrote text _ ih => exact .wrote text (ih second)
  | scope header inner _ _ ih =>
    rw [List.append_assoc]
    exact .scope header inner (ih second)

theorem within (header : Option String) (inner : Nested (k + 1) cs) :
    Nested k (.opened k header :: cs ++ [.closed k header.isSome]) := .scope header inner (.none k)

theorem le_after (nested : Nested k cs) : ∀ c ∈ cs, k ≤ c.after := by
  induction nested with
  | none => nofun
  | wrote text _ ih => exact List.forall_mem_cons.mpr ⟨Nat.le_refl _,ih⟩
  | @scope k cs ds header _ _ ih ih' =>
    intro c member
    rcases List.mem_append.mp member with member | member
    · rcases List.mem_cons.mp member with rfl | member
      · exact Nat.le_succ k
      · exact Nat.le_of_succ_le (ih c member)
    · rcases List.mem_cons.mp member with rfl | member
      · exact Nat.le_refl k
      · exact ih' c member

/-- The places at which a change may stand in a scope: its opening, inside it, its closing, or behind it. -/
theorem place_in_scope {o x y : Change} {before after : List Change}
    (split : o :: cs ++ y :: ds = before ++ x :: after) :
    (before = [] ∧ x = o ∧ after = cs ++ y :: ds) ∨
    (∃ front back, cs = front ++ x :: back ∧ before = o :: front ∧ after = back ++ y :: ds) ∨
    (before = o :: cs ∧ x = y ∧ after = ds) ∨
    ∃ front, ds = front ++ x :: after ∧ before = o :: cs ++ y :: front := by
  cases before with
  | nil =>
    obtain ⟨rfl,rfl⟩ := List.cons.inj split
    exact .inl ⟨rfl,rfl,rfl⟩
  | cons _ before =>
    obtain ⟨rfl,tail⟩ := List.cons.inj split
    rcases List.append_eq_append_iff.mp tail with ⟨more,rfl,rest⟩ | ⟨more,rfl,rest⟩
    · cases more with
      | nil =>
        obtain ⟨rfl,rfl⟩ := List.cons.inj rest
        exact .inr (.inr (.inl ⟨by simp,rfl,rfl⟩))
      | cons _ more =>
        obtain ⟨rfl,rfl⟩ := List.cons.inj rest
        exact .inr (.inr (.inr ⟨more,rfl,rfl⟩))
    · cases more with
      | nil =>
        obtain ⟨rfl,rfl⟩ := List.cons.inj rest
        exact .inr (.inr (.inl ⟨by simp,rfl,rfl⟩))
      | cons _ more =>
        obtain ⟨rfl,rfl⟩ := List.cons.inj rest
        exact .inr (.inl ⟨before,more,rfl,rfl,rfl⟩)

/-- What is opened is closed at its level, and everything up to there is further in. -/
theorem exists_closed (nested : Nested k cs) {before after : List Change} {j : Nat} {header : Option String}
    (split : cs = before ++ .opened j header :: after) :
    ∃ inside behind, after = inside ++ .closed j header.isSome :: behind ∧ ∀ c ∈ inside, j < c.after := by
  induction nested generalizing before after with
  | none => simp at split
  | wrote text _ ih =>
    cases before with
    | nil => cases split
    | cons _ before => exact ih (List.cons.inj split).2
  | @scope k cs ds header' inner _ ih ih' =>
    rcases place_in_scope split with ⟨_,own,rfl⟩ | ⟨front,back,inside,_,rfl⟩ | ⟨_,other,_⟩ | ⟨front,behind,_⟩
    · cases own
      exact ⟨cs,ds,rfl,inner.le_after⟩
    · obtain ⟨within,rest,rfl,further⟩ := ih inside
      exact ⟨within,rest ++ .closed k header'.isSome :: ds,by simp,further⟩
    · cases other
    · exact ih' behind

/-- What is closed was opened before, at its level, and everything since then is further in. -/
theorem exists_opened (nested : Nested k cs) {before after : List Change} {j : Nat} {braced : Bool}
    (split : cs = before ++ .closed j braced :: after) :
    ∃ outside header inside, header.isSome = braced ∧ before = outside ++ .opened j header :: inside ∧
      ∀ c ∈ inside, j < c.after := by
  induction nested generalizing before after with
  | none => simp at split
  | @wrote k cs text _ ih =>
    cases before with
    | nil => cases split
    | cons _ before =>
      obtain ⟨rfl,tail⟩ := List.cons.inj split
      obtain ⟨outside,header,inside,kind,rfl,further⟩ := ih tail
      exact ⟨.wrote k text :: outside,header,inside,kind,rfl,further⟩
  | @scope k cs ds header' inner _ ih ih' =>
    rcases place_in_scope split with ⟨_,other,_⟩ | ⟨front,back,inside,rfl,_⟩ | ⟨rfl,own,_⟩ | ⟨front,behind,rfl⟩
    · cases other
    · obtain ⟨outside,header,within,kind,rfl,further⟩ := ih inside
      exact ⟨.opened k header' :: outside,header,within,kind,rfl,further⟩
    · cases own
      exact ⟨[],header',cs,rfl,rfl,inner.le_after⟩
    · obtain ⟨outside,header,within,kind,rfl,further⟩ := ih' behind
      exact ⟨.opened k header' :: cs ++ .closed k header'.isSome :: outside,header,within,kind,by simp,further⟩

end Nested

/-- There is one first change that leads back to a level. -/
theorem back_unique {inside inside' behind behind' : List Change} {x y : Change} (further : ∀ c ∈ inside, k < c.after)
    (further' : ∀ c ∈ inside', k < c.after) (back : x.after = k) (back' : y.after = k)
    (same : inside ++ x :: behind = inside' ++ y :: behind') : inside = inside' ∧ behind = behind' := by
  induction inside generalizing inside' with
  | nil =>
    cases inside' with
    | nil => exact ⟨rfl,(List.cons.inj same).2⟩
    | cons c inside' =>
      obtain ⟨rfl,_⟩ := List.cons.inj same
      exact absurd (further' x List.mem_cons_self) (by omega)
  | cons c inside ih =>
    cases inside' with
    | nil =>
      obtain ⟨rfl,_⟩ := List.cons.inj same
      exact absurd (further c List.mem_cons_self) (by omega)
    | cons c' inside' =>
      obtain ⟨rfl,tail⟩ := List.cons.inj same
      obtain ⟨rfl,rfl⟩ := ih (fun d member => further d (List.mem_cons_of_mem c member))
        (fun d member => further' d (List.mem_cons_of_mem c member)) tail
      exact ⟨rfl,rfl⟩

/-- Tokens that do not leave: they make some changes, and what is open stays so. -/
structure Whole (k : Nat) (ts : List Token) (cs : List Change) : Prop where
  stays : .leaving ∉ ts
  makes : ∀ made guards, ts.foldl Progress.feed ⟨made,guards,k⟩ = ⟨made ++ cs,guards,k⟩

/-- Tokens of which the first one that leaves is told apart: what is open there beyond what was open before makes, once
it is closed, the rest of the changes. -/
structure Broken (k : Nat) (ts : List Token) (cs : List Change) : Prop where
  leaves : .leaving ∈ ts
  makes : ∀ made guards, ∃ done inner j, done ++ inner.map Guard.closing = cs ∧
    (ts.takeWhile (· ≠ .leaving)).foldl Progress.feed ⟨made,guards,k⟩ = ⟨made ++ done,inner ++ guards,j⟩

def Carried (left : Bool) (k : Nat) (ts : List Token) (cs : List Change) : Prop :=
  if left then Broken k ts cs else Whole k ts cs

section Carried

variable {ts ts' : List Token} {left : Bool}

theorem Whole.nil (k : Nat) : Whole k [] [] := ⟨List.not_mem_nil,by simp⟩

theorem Whole.text (k : Nat) (indented : Bool) (text : String) :
    Whole k [.text indented text] [.wrote k ((if indented then indentation k else "") ++ text)] :=
  ⟨by simp,fun _ _ => rfl⟩

theorem Broken.leave (k : Nat) : Broken k [.leaving] [] :=
  ⟨List.mem_singleton_self _,fun _ guards => ⟨[],[],k,rfl,by simp⟩⟩

theorem takeWhile_of_not_mem (stays : Token.leaving ∉ ts) (more : List Token) :
    (ts ++ more).takeWhile (· ≠ .leaving) = ts ++ more.takeWhile (· ≠ .leaving) := by
  refine List.takeWhile_append_of_pos fun t member => ?_
  simpa using fun same : t = .leaving => stays (same ▸ member)

theorem takeWhile_of_mem (leaves : Token.leaving ∈ ts) (more : List Token) :
    (ts ++ more).takeWhile (· ≠ .leaving) = ts.takeWhile (· ≠ .leaving) := by
  rw [List.takeWhile_append,if_neg]
  intro whole
  have all := List.takeWhile_eq_self_iff.mp (List.IsPrefix.eq_of_length (List.takeWhile_prefix _) whole)
  simpa using all _ leaves

theorem Whole.append (first : Whole k ts cs) (second : Carried left k ts' ds) :
    Carried left k (ts ++ ts') (cs ++ ds) := by
  cases left with
  | false =>
    refine ⟨?_,fun made guards => ?_⟩
    · simpa using ⟨first.stays,second.stays⟩
    · rw [List.foldl_append,first.makes,second.makes,List.append_assoc]
  | true =>
    refine ⟨List.mem_append_right ts second.leaves,fun made guards => ?_⟩
    obtain ⟨done,inner,j,closes,carried⟩ := second.makes (made ++ cs) guards
    refine ⟨cs ++ done,inner,j,?_,?_⟩
    · rw [List.append_assoc,closes]
    · rw [takeWhile_of_not_mem first.stays,List.foldl_append,first.makes,carried,List.append_assoc]

theorem Broken.append (first : Broken k ts cs) (more : List Token) : Broken k (ts ++ more) cs := by
  refine ⟨List.mem_append_left more first.leaves,fun made guards => ?_⟩
  rw [takeWhile_of_mem first.leaves]
  exact first.makes made guards

theorem Carried.within (header : Option String) (inner : Carried left (k + 1) ts cs) :
    Carried left k (.opening header :: ts ++ [.ending]) (.opened k header :: cs ++ [.closed k header.isSome]) := by
  cases left with
  | false =>
    refine ⟨?_,fun made guards => ?_⟩
    · simpa using inner.stays
    · rw [List.cons_append,List.foldl_cons,List.foldl_append]
      simp only [Progress.feed,inner.makes]
      simp [Progress.feed,Guard.closing]
  | true =>
    have broken : Broken (k + 1) (ts ++ [.ending]) cs := Broken.append inner _
    refine ⟨List.mem_cons_of_mem _ broken.leaves,fun made guards => ?_⟩
    obtain ⟨done,held,j,closes,carried⟩ := broken.makes (made ++ [.opened k header]) (⟨k,header.isSome⟩ :: guards)
    refine ⟨.opened k header :: done,held ++ [⟨k,header.isSome⟩],j,?_,?_⟩
    · rw [← closes]
      simp [Guard.closing]
    · rw [List.cons_append,List.takeWhile_cons_of_pos (by simp),List.foldl_cons]
      simp only [Progress.feed,carried]
      simp

end Carried

/-- What some steps made of a writer, level by level and beside their tokens. -/
structure Made (w : CodeWriter) (ts : List Token) (r : Run) (cs : List Change) : Prop where
  nested : Nested w.level cs
  follows : Follows w cs r.log r.writer
  level : r.writer.level = w.level
  carried : Carried r.left w.level ts cs

theorem Made.one (indented : Bool) (text : String) {next : CodeWriter} (level : next.level = w.level)
    (written : next.text = w.text ++ ((if indented then indentation w.level else "") ++ text)) :
    Made w [.text indented text] (.one next)
      [.wrote w.level ((if indented then indentation w.level else "") ++ text)] where
  nested := .wrote _ (.none _)
  follows := .one ⟨rfl,level,written⟩
  level
  carried := Whole.text ..

/-- What is opened is closed by its end, whatever stands in between and however it ends. -/
theorem Made.within {ts : List Token} {opened closed : CodeWriter} {inner : Run} {header : Option String}
    (opens : (Change.opened w.level header).Leads w opened) (made : Made opened ts inner cs)
    (level : closed.level = inner.writer.level - 1)
    (written : closed.text = inner.writer.text ++ (Change.closed (inner.writer.level - 1) header.isSome).text) :
    Made w (.opening header :: ts ++ [.ending]) ⟨closed,opened :: inner.log ++ [closed],inner.left⟩
      (.opened w.level header :: cs ++ [.closed w.level header.isSome]) := by
  have outer : opened.level = w.level + 1 := opens.level
  have deeper : inner.writer.level = w.level + 1 := made.level.trans outer
  have back : inner.writer.level - 1 = w.level := by omega
  rw [back] at level written
  have closes : (Change.closed w.level header.isSome).Leads inner.writer closed := ⟨deeper,level,written⟩
  refine ⟨.within header (outer ▸ made.nested),?_,level,.within header (outer ▸ made.carried)⟩
  exact .next opens (made.follows.append (.one closes))

mutual
theorem exists_made_step (w : CodeWriter) : (s : Step) → ∃ cs, Made w (layoutOf s) (w.step s) cs
  | .append text => ⟨_,.one false text rfl (by simp [append])⟩
  | .line text => ⟨_,.one true (text ++ "\n") rfl (by simp [line,startLine,endLine,append,String.append_assoc])⟩
  | .emptyLine => ⟨_,.one false "\n" rfl (by simp [endLine,append])⟩
  | .startLine => ⟨_,.one true "" rfl (by simp [startLine,append])⟩
  | .endLine => ⟨_,.one false "\n" rfl (by simp [endLine,append])⟩
  | .scope header body => by
    obtain ⟨cs,made⟩ := exists_made_run (w.openScope header) body
    have opens : (Change.opened w.level (some header)).Leads w (w.openScope header) := by
      refine ⟨rfl,rfl,?_⟩
      simp [openScope,opening,line,startLine,endLine,append,Change.text,String.append_assoc]
    refine ⟨_,.within opens made rfl ?_⟩
    simp [closeScope,line,startLine,endLine,append,Change.text,String.append_assoc]
  | .indented body => by
    obtain ⟨cs,made⟩ := exists_made_run w.indent body
    have opens : (Change.opened w.level none).Leads w w.indent := ⟨rfl,rfl,by simp [indent,Change.text]⟩
    exact ⟨_,.within opens made rfl (by simp [dedent,Change.text])⟩
  | .leave => ⟨[],⟨.none _,.done w,rfl,Broken.leave _⟩⟩

theorem exists_made_run (w : CodeWriter) : (steps : List Step) → ∃ cs, Made w (layout steps) (w.run steps) cs
  | [] => ⟨[],⟨.none _,.done w,rfl,Whole.nil _⟩⟩
  | s :: steps => by
    obtain ⟨cs,first⟩ := exists_made_step w s
    rw [run,layout]
    cases left : (w.step s).left with
    | true =>
      have broken : Broken w.level (layoutOf s) cs := by simpa [Carried,left] using first.carried
      refine ⟨cs,⟨first.nested,first.follows,first.level,?_⟩⟩
      simpa [Carried,left] using broken.append (layout steps)
    | false =>
      have whole : Whole w.level (layoutOf s) cs := by simpa [Carried,left] using first.carried
      obtain ⟨ds,rest⟩ := exists_made_run (w.step s).writer steps
      refine ⟨cs ++ ds,⟨?_,first.follows.append rest.follows,rest.level.trans first.level,?_⟩⟩
      · exact first.nested.append (first.level ▸ rest.nested)
      · exact whole.append (first.level ▸ rest.carried)
end

theorem Carried.carriedOut_eq {left : Bool} {steps : List Step} (carried : Carried left k (layout steps) cs) :
    carriedOut k steps = cs ∧ (left = true ↔ .leaving ∈ layout steps) := by
  cases left with
  | false =>
    have whole := takeWhile_of_not_mem carried.stays []
    rw [List.append_nil,List.takeWhile_nil,List.append_nil] at whole
    refine ⟨?_,by simpa using carried.stays⟩
    simp only [carriedOut,whole,carried.makes]
    simp
  | true =>
    obtain ⟨done,inner,j,closes,fed⟩ := carried.makes [] []
    refine ⟨?_,by simpa using carried.leaves⟩
    simp only [carriedOut,fed]
    simpa using closes

/-- Whatever the steps and the writer, the level is the same in the end. What is written on the way are the changes that
the steps stand for, one after another and each at its level, up to where the steps leave, if they do, and then only the
closings of what is open, innermost first. Whatever is opened is closed once, at the level where it was opened, and
nothing else is closed. -/
theorem run_closes (w : CodeWriter) (steps : List Step) :
    (w.run steps).writer.level = w.level ∧
    Follows w (carriedOut w.level steps) (w.run steps).log (w.run steps).writer ∧
    ((w.run steps).left = true ↔ .leaving ∈ layout steps) ∧
    (∀ before k header after, carriedOut w.level steps = before ++ .opened k header :: after →
      ∃! cut : List Change × List Change, after = cut.1 ++ .closed k header.isSome :: cut.2 ∧
        ∀ c ∈ cut.1, k < c.after) ∧
    ∀ before k braced after, carriedOut w.level steps = before ++ .closed k braced :: after →
      ∃ outside header inside, header.isSome = braced ∧ before = outside ++ .opened k header :: inside ∧
        ∀ c ∈ inside, k < c.after := by
  obtain ⟨cs,made⟩ := exists_made_run w steps
  obtain ⟨same,leaves⟩ := made.carried.carriedOut_eq
  rw [same]
  refine ⟨made.level,made.follows,leaves,fun before k header after split => ?_,fun before k braced after split => ?_⟩
  · obtain ⟨inside,behind,rfl,further⟩ := made.nested.exists_closed split
    refine ⟨(inside,behind),⟨rfl,further⟩,?_⟩
    rintro ⟨inside',behind'⟩ ⟨same,further'⟩
    obtain ⟨rfl,rfl⟩ := back_unique further further' rfl rfl same
    rfl
  · exact made.nested.exists_opened split

/-- A scope and an indentation that are open where the steps leave. -/
example : carriedOut 1 [.scope "match x" [.line "0 => a,",.indented [.append "1",.leave,.emptyLine]],.line "y"] =
    [.opened 1 (some "match x"),.wrote 2 "        0 => a,\n",.opened 2 none,.wrote 3 "1",.closed 2 false,
      .closed 1 true] := by
  decide

end InlineIcons.CodeWriter
