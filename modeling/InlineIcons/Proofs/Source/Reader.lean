import InlineIcons.Source.Item.Reader

/-! How readers run: one fact for each of the smallest, and for a loop that its bound does not matter. -/
namespace InlineIcons.Source.Reader

variable {α β : Type} {s s' : Stream}

theorem run_bind (r : Reader α) (f : α → Reader β) (s : Stream) :
    (r >>= f).run s = (r.run s).bind fun p => (f p.1).run p.2 := rfl

theorem run_bind_of_ok {r : Reader α} {x : α} (read : r.run s = .ok (x,s')) (f : α → Reader β) :
    (r >>= f).run s = (f x).run s' := by
  rw [run_bind,read]
  rfl

theorem bind_ok {r : Reader α} {f : α → Reader β} {q : β × Stream} (read : (r >>= f).run s = .ok q) :
    ∃ x s', r.run s = .ok (x,s') ∧ (f x).run s' = .ok q := by
  rw [run_bind] at read
  cases first : r.run s with
  | error fault =>
    rw [first] at read
    cases read
  | ok p =>
    rw [first] at read
    exact ⟨p.1,p.2,rfl,read⟩

theorem map_ok {r : Reader α} {f : α → β} {y : β} (read : (f <$> r).run s = .ok (y,s')) :
    ∃ x, r.run s = .ok (x,s') ∧ y = f x := by
  obtain ⟨x,s₁,first,last⟩ := bind_ok (f := fun x => pure (f x)) read
  cases last
  exact ⟨x,first,rfl⟩

@[simp] theorem run_pure (x : α) (s : Stream) : (pure x : Reader α).run s = .ok (x,s) := rfl

@[simp] theorem run_tokens (s : Stream) : tokens.run s = .ok (s.tokens,s) := rfl

@[simp] theorem run_setTokens (ts : List TokenTree) (s : Stream) :
    (setTokens ts).run s = .ok ((),{ s with tokens := ts }) := rfl

@[simp] theorem run_atEnd (s : Stream) : atEnd.run s = .ok (s.tokens.isEmpty,s) := rfl

@[simp] theorem run_peek (test : List TokenTree → Bool) (s : Stream) :
    (peek test).run s = .ok (test s.tokens,s) := rfl

theorem taking_ok_iff {ts : List TokenTree} {value x : α} :
    (do setTokens ts; return value : Reader α).run s = .ok (x,s') ↔ value = x ∧ s' = { s with tokens := ts } := by
  constructor
  · rintro ⟨⟩
    exact ⟨rfl,rfl⟩
  · rintro ⟨rfl,rfl⟩
    rfl

/-- A word that comes is taken, any other token stays. -/
theorem run_word? (w : String) (s : Stream) : (word? w).run s =
    if beginsWord w s.tokens then .ok (true,{ s with tokens := s.tokens.drop 1 }) else .ok (false,s) := by
  obtain ⟨ts,finish,unread⟩ := s
  rcases ts with _ | ⟨t,ts⟩
  · rfl
  · cases t with
    | word text place =>
      have opened : (word? w).run ⟨.word text place :: ts,finish,unread⟩ = (if text = w then
          (do setTokens ts; return true) else pure false : Reader Bool).run
            ⟨.word text place :: ts,finish,unread⟩ := rfl
      rw [opened]
      by_cases same : text = w
      · have comes : beginsWord w (.word text place :: ts) = true := beq_iff_eq.mpr same
        rw [if_pos same,if_pos comes]
        rfl
      · have other : ¬ beginsWord w (.word text place :: ts) = true := by simpa [beginsWord] using same
        rw [if_neg same,if_neg other]
        rfl
    | mark c joint place => rfl
    | literal text place => rfl
    | group d place closing body => rfl

theorem run_mark? (text : String) (s : Stream) : (mark? text).run s =
    match TokenTree.afterMarks? text.toList s.tokens with
    | some rest => .ok (true,{ s with tokens := rest })
    | none => .ok (false,s) := by
  rw [mark?,run_bind,run_tokens]
  simp only [Except.bind]
  cases TokenTree.afterMarks? text.toList s.tokens <;> rfl

theorem mark_ok {text : String} (read : (mark text).run s = .ok ((),s')) :
    ∃ rest, TokenTree.afterMarks? text.toList s.tokens = some rest ∧ s' = { s with tokens := rest } := by
  rw [mark,run_bind,run_tokens] at read
  simp only [Except.bind] at read
  cases comes : TokenTree.afterMarks? text.toList s.tokens with
  | none =>
    rw [comes] at read
    cases read
  | some rest =>
    rw [comes] at read
    cases read
    exact ⟨rest,rfl,rfl⟩

/-- What a reader leaves in a group. -/
def leftIn (d : Delimiter) (s : Stream) : Option SyntaxFault :=
  s.unread.or (s.tokens.head?.map fun t => ⟨t.place,.unread (some d)⟩)

theorem run_inGroup (d : Delimiter) (body : Reader α) (place closing : Position) (inner rest : List TokenTree)
    (finish : Position) (unread : Option SyntaxFault) :
    (inGroup d body).run ⟨.group d place closing inner :: rest,finish,unread⟩ =
      (body.run ⟨inner,closing,unread⟩).map fun p => (p.1,⟨rest,finish,leftIn d p.2⟩) := by
  simp only [inGroup,StateT.run_bind,StateT.run_get]
  show StateT.run (if d ≠ d then _ else _) _ = _
  rw [if_neg fun apart => apart rfl]
  simp only [StateT.run_bind,StateT.run_monadLift,monadLift_self]
  cases body.run ⟨inner,closing,unread⟩ <;> rfl

theorem inGroup_ok {d : Delimiter} {body : Reader α} {x : α} (read : (inGroup d body).run s = .ok (x,s')) :
    ∃ place closing inner rest s₁, s.tokens = .group d place closing inner :: rest ∧
      body.run ⟨inner,closing,s.unread⟩ = .ok (x,s₁) ∧ s' = ⟨rest,s.finish,leftIn d s₁⟩ := by
  obtain ⟨ts,finish,unread⟩ := s
  rcases ts with _ | ⟨t,ts⟩
  · cases read
  · cases t with
    | word text place => cases read
    | mark c joint place => cases read
    | literal text place => cases read
    | group d' place closing inner =>
      by_cases same : d = d'
      · subst same
        rw [run_inGroup] at read
        cases first : body.run ⟨inner,closing,unread⟩ with
        | error fault =>
          rw [first] at read
          cases read
        | ok p =>
          rw [first] at read
          cases read
          exact ⟨place,closing,inner,ts,p.2,rfl,first,rfl⟩
      · have refused : (inGroup d body).run ⟨.group d' place closing inner :: ts,finish,unread⟩ =
            (if d ≠ d' then expected [delimiterName d] else inGroup d body).run
              ⟨.group d' place closing inner :: ts,finish,unread⟩ := by
          rw [if_pos same]
          simp only [inGroup,StateT.run_bind,StateT.run_get]
          show StateT.run (if d ≠ d' then _ else _) _ = _
          rw [if_pos same]
        rw [refused,if_pos same] at read
        cases read

theorem runAll_ok_iff {r : Reader α} {finish : Position} {ts : List TokenTree} {x : α} :
    r.runAll finish ts = .ok x ↔ ∃ s, r.run ⟨ts,finish,none⟩ = .ok (x,s) ∧ s.tokens = [] ∧ s.unread = none := by
  unfold runAll
  cases read : r.run ⟨ts,finish,none⟩ with
  | error fault =>
    refine iff_of_false ?_ ?_
    · rintro ⟨⟩
    · rintro ⟨_,⟨⟩,_⟩
  | ok p =>
    obtain ⟨y,ts,finish,unread⟩ := p
    constructor
    · intro done
      cases unread with
      | some fault => cases done
      | none =>
        cases ts with
        | cons t ts => cases done
        | nil =>
          cases done
          exact ⟨_,rfl,rfl,rfl⟩
    · rintro ⟨_,⟨⟩,empty,whole⟩
      cases empty
      cases whole
      rfl

/-! Loops. An item takes a token at least, so a bound above the number of tokens does not end a loop. -/

section Loop

variable {more : Reader Bool} {item : Reader α}
  (looks : ∀ s b s', more.run s = .ok (b,s') → s' = s)
  (takes : ∀ s x s', item.run s = .ok (x,s') → s'.tokens.length < s.tokens.length)

include looks takes

theorem whileWithin_eq {n m : Nat} (s : Stream) (above : s.tokens.length < n) (above' : s.tokens.length < m) :
    (whileWithin more item n).run s = (whileWithin more item m).run s := by
  induction n generalizing m s with
  | zero => exact absurd above (Nat.not_lt_zero _)
  | succ n ih =>
    obtain ⟨m,rfl⟩ := Nat.exists_eq_add_of_lt (Nat.zero_lt_of_lt above')
    rw [Nat.zero_add] at above' ⊢
    simp only [whileWithin,run_bind]
    cases peeked : more.run s with
    | error fault => rfl
    | ok p =>
      obtain rfl := looks s p.1 p.2 peeked
      simp only [Except.bind]
      cases p.1 with
      | false => rfl
      | true =>
        simp only [if_true,run_bind]
        cases read : item.run p.2 with
        | error fault => rfl
        | ok q =>
          have taken := takes _ _ _ read
          simp only [Except.bind]
          rw [ih (m := m) q.2 (by omega) (by omega)]

end Loop

end InlineIcons.Source.Reader
