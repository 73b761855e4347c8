import InlineIcons.Literal
import InlineIcons.Source.Quoted
import InlineIcons.Text.Blank

/-! A quoted text is one literal and reads back as the text. -/
namespace InlineIcons.Source.Quoted

/-- Runs the machine over characters none of which closes the literal. -/
def advance (q : Quoting) (state : State) : List Char → Option (State × List Char)
  | [] => some (state,[])
  | c :: cs =>
    if c = '"' ∧ state.closes then none
    else match state.step q c with
      | none => none
      | some (next,gained) => (advance q next cs).map fun (last,more) => (last,gained ++ more)

theorem readFrom_advance {q : Quoting} {state last : State} {cs gained : List Char}
    (ran : advance q state cs = some (last,gained)) (count : Nat) (out rest : List Char) :
    readFrom q state count out (cs ++ rest) =
      readFrom q last (count + cs.length) (gained.reverse ++ out) rest := by
  induction cs generalizing state count out gained with
  | nil =>
    simp only [advance,Option.some.injEq,Prod.mk.injEq] at ran
    obtain ⟨rfl,rfl⟩ := ran
    rfl
  | cons c cs ih =>
    simp only [advance] at ran
    split at ran
    · cases ran
    · next inside =>
      rw [List.cons_append,readFrom,if_neg inside]
      cases stepped : state.step q c with
      | none => simp [stepped] at ran
      | some reached =>
        obtain ⟨next,here⟩ := reached
        simp only [stepped,Option.map_eq_some_iff] at ran
        obtain ⟨⟨last',more⟩,ran,same⟩ := ran
        obtain ⟨rfl,rfl⟩ := Prod.mk.inj same
        have counted : count + 1 + cs.length = count + (c :: cs).length := by
          rw [List.length_cons]
          omega
        dsimp only
        rw [ih ran,counted,List.reverse_append,List.append_assoc]

theorem advance_append {q : Quoting} {state mid last : State} {cs ds gained more : List Char}
    (first : advance q state cs = some (mid,gained)) (second : advance q mid ds = some (last,more)) :
    advance q state (cs ++ ds) = some (last,gained ++ more) := by
  induction cs generalizing state gained with
  | nil =>
    simp only [advance,Option.some.injEq,Prod.mk.injEq] at first
    obtain ⟨rfl,rfl⟩ := first
    exact second
  | cons c cs ih =>
    simp only [List.cons_append,advance] at first ⊢
    split at first
    · cases first
    · next inside =>
      rw [if_neg inside]
      cases stepped : state.step q c with
      | none => simp [stepped] at first
      | some reached =>
        obtain ⟨next,here⟩ := reached
        simp only [stepped,Option.map_eq_some_iff] at first ⊢
        obtain ⟨⟨mid',more'⟩,first,same⟩ := first
        obtain ⟨rfl,rfl⟩ := Prod.mk.inj same
        exact ⟨_,ih first,by simp⟩

end InlineIcons.Source.Quoted

namespace InlineIcons.Literal

open Source Source.Quoted

theorem escapeChar_small :
    ∀ n < 160, advance .text .plain (escapeChar (.ofNat n)) = some (.plain,[.ofNat n]) ∧
      (escapeChar (.ofNat n)).all (!Text.isControl ·) = true := by decide +kernel

theorem ne_of_large {c d : Char} (large : 160 ≤ c.toNat) (small : d.toNat < 160) : c ≠ d := by
  rintro rfl
  omega

theorem escapeChar_large {c : Char} (large : 160 ≤ c.toNat) : escapeChar c = [c] := by
  have plain : ¬(c.toNat < 0x20 || (0x7F ≤ c.toNat && c.toNat < 0xA0)) := by simp; omega
  simp [escapeChar,ne_of_large large (d := '\\'),ne_of_large large (d := '"'),
    ne_of_large large (d := '\n'),ne_of_large large (d := '\r'),ne_of_large large (d := '\t'),
    ne_of_large large (d := '\x00'),plain]

theorem ofNat_toNat_small {c : Char} (small : c.toNat < 160) : ∃ n < 160, c = Char.ofNat n :=
  ⟨c.toNat,small,(Char.ofNat_toNat c).symm⟩

theorem advance_escapeChar (c : Char) : advance .text .plain (escapeChar c) = some (.plain,[c]) := by
  by_cases small : c.toNat < 160
  · obtain ⟨n,fits,rfl⟩ := ofNat_toNat_small small
    exact (escapeChar_small n fits).1
  · have large : 160 ≤ c.toNat := by omega
    rw [escapeChar_large large]
    simp [advance,State.step,State.ofPlain,ne_of_large large (d := '\\'),ne_of_large large (d := '"'),
      ne_of_large large (d := '\r')]

theorem isControl_of_mem_escapeChar {c d : Char} (member : d ∈ escapeChar c) : Text.isControl d = false := by
  by_cases small : c.toNat < 160
  · obtain ⟨n,fits,rfl⟩ := ofNat_toNat_small small
    simpa using List.all_eq_true.mp (escapeChar_small n fits).2 d member
  · have large : 160 ≤ c.toNat := by omega
    rw [escapeChar_large large,List.mem_singleton] at member
    subst member
    simp [Text.isControl]
    omega

theorem isControl_of_mem_quoteChars {cs : List Char} {d : Char} (member : d ∈ quoteChars cs) :
    Text.isControl d = false := by
  rcases List.mem_append.mp member with member | member
  · rcases List.mem_cons.mp member with rfl | member
    · decide
    · obtain ⟨c,_,member⟩ := List.mem_flatMap.mp member
      exact isControl_of_mem_escapeChar member
  · rw [List.mem_singleton.mp member]
    decide

theorem advance_escaped (cs : List Char) :
    advance .text .plain (cs.flatMap escapeChar) = some (.plain,cs) := by
  induction cs with
  | nil => rfl
  | cons c cs ih => exact advance_append (advance_escapeChar c) ih

/-- The first quote that stands for itself is the one that ends the literal, whatever follows. -/
theorem read?_escaped (cs rest : List Char) :
    read? .text (cs.flatMap escapeChar ++ '"' :: rest) = some ((cs.flatMap escapeChar).length + 1,cs) := by
  rw [read?,readFrom_advance (advance_escaped cs),readFrom,if_pos ⟨rfl,rfl⟩]
  simp

end InlineIcons.Literal
