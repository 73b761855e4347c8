import Mathlib.Data.String.Basic

/-! Splitting a text at pairs of colons: what holds no colon is passed over, and a pair ends the part before it. Places
are byte counts, so each is given by the characters that stand before it. -/
namespace InlineIcons.Text
open String

/-- The place in a text behind some of its characters. -/
def behind (cs : List Char) : Pos.Raw := ⟨utf8Len cs⟩

variable {before : List Char} {done : List String}

theorem get_behind (c : Char) (rest : List Char) : (behind before).get (.ofList (before ++ c :: rest)) = c := by
  rw [behind,get_of_valid,List.headD_cons]

theorem next_behind (c : Char) (rest : List Char) :
    (behind before).next (.ofList (before ++ c :: rest)) = behind (before ++ [c]) := by
  rw [behind,behind,next_of_valid,utf8Len_append,utf8Len_cons,utf8Len_nil,Nat.zero_add]

theorem not_atEnd_behind (c : Char) (rest : List Char) :
    ¬ (behind before).atEnd (.ofList (before ++ c :: rest)) = true := by
  rw [behind,atEnd_of_valid]
  exact List.cons_ne_nil c rest

theorem atEnd_behind : (behind before).atEnd (.ofList before) = true := by
  have ends := (atEnd_of_valid before []).mpr rfl
  rwa [List.append_nil] at ends

theorem extract_behind (before part rest : List Char) :
    Pos.Raw.extract (.ofList (before ++ part ++ rest)) (behind before) (behind (before ++ part)) = .ofList part := by
  rw [behind,behind,utf8Len_append]
  exact extract_of_valid before part rest

theorem splitOnAux_pass {c : Char} (other : c ≠ ':') (part rest : List Char) :
    splitOnAux (.ofList (before ++ part ++ c :: rest)) "::" (behind before) (behind (before ++ part)) 0 done =
      splitOnAux (.ofList (before ++ part ++ c :: rest)) "::" (behind before) (behind (before ++ part ++ [c])) 0
        done := by
  have differs : (c == Pos.Raw.get "::" 0) = false := beq_false_of_ne other
  rw [splitOnAux,if_neg (not_atEnd_behind c rest),get_behind,differs,if_neg Bool.false_ne_true]
  have stays : (behind (before ++ part)).unoffsetBy 0 = behind (before ++ part) := rfl
  rw [stays,next_behind]

theorem splitOnAux_cut (part rest : List Char) :
    splitOnAux (.ofList (before ++ part ++ ':' :: ':' :: rest)) "::" (behind before) (behind (before ++ part)) 0 done =
      splitOnAux (.ofList (before ++ part ++ ':' :: ':' :: rest)) "::" (behind (before ++ part ++ [':',':']))
        (behind (before ++ part ++ [':',':'])) 0 (.ofList part :: done) := by
  have second : before ++ part ++ ':' :: ':' :: rest = before ++ part ++ [':'] ++ ':' :: rest := by simp
  rw [splitOnAux,if_neg (not_atEnd_behind ':' _),get_behind,if_pos (by rfl),next_behind]
  dsimp only
  -- One colon alone does not end the part, so the second one is compared as well.
  rw [if_neg (by decide +kernel),splitOnAux,second,if_neg (not_atEnd_behind ':' rest),get_behind,
    if_pos (by decide),next_behind]
  dsimp only
  rw [if_pos (by decide +kernel)]
  have back : (behind (before ++ part ++ [':'] ++ [':'])).unoffsetBy (Pos.Raw.next "::" (Pos.Raw.next "::" 0)) =
      behind (before ++ part) := by
    have two : Pos.Raw.next "::" (Pos.Raw.next "::" 0) = ⟨2⟩ := by decide +kernel
    have one : ':'.utf8Size = 1 := by decide
    simp only [behind,two,utf8Len_append,utf8Len_cons,utf8Len_nil,one,Pos.Raw.unoffsetBy]
    congr 1
  rw [back,← second,extract_behind]
  simp

theorem splitOnAux_end (before part : List Char) (done : List String) :
    splitOnAux (.ofList (before ++ part)) "::" (behind before) (behind (before ++ part)) 0 done =
      done.reverse ++ [.ofList part] := by
  have last := extract_behind before part []
  rw [List.append_nil] at last
  rw [splitOnAux,if_pos atEnd_behind,last,List.reverse_cons]

theorem splitOnAux_part {more : List Char} (single : ':' ∉ more) (before part rest : List Char) (done : List String) :
    splitOnAux (.ofList (before ++ part ++ more ++ rest)) "::" (behind before) (behind (before ++ part)) 0 done =
      splitOnAux (.ofList (before ++ part ++ more ++ rest)) "::" (behind before) (behind (before ++ part ++ more)) 0
        done := by
  induction more generalizing part with
  | nil => rw [List.append_nil]
  | cons c more ih =>
    obtain ⟨other,later⟩ := not_or.mp (List.mem_cons.not.mp single)
    have moved := ih later (part ++ [c])
    rw [List.append_assoc _ _ rest,List.cons_append,splitOnAux_pass (Ne.symm other)]
    simpa using moved

end InlineIcons.Text
