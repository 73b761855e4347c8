import InlineIcons.Memo

/-! What holds of every value of a memo table. A stage keeps it if it holds of what the stage computes;
and where it pins a value down, reuse cannot be told from computing. -/
namespace InlineIcons.Memo

variable {κ ι α : Type} {p : κ → Fingerprint → α → Prop}

def All (m : Memo κ α) (p : κ → Fingerprint → α → Prop) : Prop :=
  ∀ e ∈ m.entries, p e.key e.fingerprint e.value

@[simp] theorem all_empty : (empty : Memo κ α).All p := by simp [All,empty]

variable [DecidableEq κ]

theorem fresh?_all {m : Memo κ α} (table : m.All p) {key : κ} {fingerprint : Fingerprint} {value : α}
    (found : m.fresh? key fingerprint = some value) : p key fingerprint value := by
  unfold fresh? at found
  cases entry : m.find? key with
  | none => simp [entry] at found
  | some e =>
    have keyed : e.key = key := by simpa using List.find?_some entry
    simp only [entry,Option.ite_none_right_eq_some,Option.some.injEq] at found
    obtain ⟨printed,valued⟩ := found
    exact keyed ▸ printed ▸ valued ▸ table e (List.mem_of_find?_eq_some entry)

theorem insert_all {m : Memo κ α} (table : m.All p) {key : κ} {fingerprint : Fingerprint} {value : α}
    (holds : p key fingerprint value) : (m.insert key fingerprint value).All p := by
  intro e member
  rcases List.mem_cons.mp member with rfl | member
  · exact holds
  · exact table e (List.mem_filter.mp member).1

theorem retain_all {m : Memo κ α} (table : m.All p) (keys : List κ) : (m.retain keys).All p :=
  fun e member => table e (List.mem_filter.mp member).1

theorem getOrCompute_value (m : Memo κ α) (stats : MemoStats) (key : κ) (fingerprint : Fingerprint)
    (compute : Unit → α) :
    (m.getOrCompute stats key fingerprint compute).1 =
      (m.fresh? key fingerprint).getD (compute ()) := by
  unfold getOrCompute
  cases m.fresh? key fingerprint <;> rfl

theorem getOrCompute_holds {m : Memo κ α} (table : m.All p) (stats : MemoStats) {key : κ}
    {fingerprint : Fingerprint} {compute : Unit → α} (holds : p key fingerprint (compute ())) :
    p key fingerprint (m.getOrCompute stats key fingerprint compute).1 := by
  rw [getOrCompute_value]
  cases found : m.fresh? key fingerprint with
  | none => exact holds
  | some v => exact fresh?_all table found

theorem getOrCompute_all {m : Memo κ α} (table : m.All p) (stats : MemoStats) {key : κ}
    {fingerprint : Fingerprint} {compute : Unit → α} (holds : p key fingerprint (compute ())) :
    (m.getOrCompute stats key fingerprint compute).2.1.All p := by
  unfold getOrCompute
  cases m.fresh? key fingerprint with
  | none => exact insert_all table holds
  | some _ => exact table

/-- A stage adds what it computes to a table and drops the rest. -/
theorem stage_all {m : Memo κ α} (table : m.All p) (compute : ι → α) (items : List (Item κ ι))
    (holds : ∀ i ∈ items, p i.key i.fingerprint (compute i.input)) :
    (m.stage compute items).2.1.All p := by
  refine retain_all ?_ _
  have stale : ∀ i ∈ m.stale items, p i.key i.fingerprint (compute i.input) :=
    fun i member => holds i (List.mem_filter.mp member).1
  generalize m.stale items = work at stale
  induction work generalizing m with
  | nil => exact table
  | cons i work ih =>
    exact ih (insert_all table (stale i List.mem_cons_self))
      fun j member => stale j (List.mem_cons_of_mem i member)

theorem outputs_eq_map {m : Memo κ α} (table : m.All p) (compute : ι → α) (items : List (Item κ ι))
    (pinned : ∀ i ∈ items, ∀ v, p i.key i.fingerprint v → v = compute i.input) :
    m.outputs compute items = items.map fun i => compute i.input := by
  refine List.map_congr_left fun i member => ?_
  cases found : m.fresh? i.key i.fingerprint with
  | none => rfl
  | some v => exact pinned i member v (fresh?_all table found)

/-- An empty table computes everything. -/
theorem outputs_empty (compute : ι → α) (items : List (Item κ ι)) :
    (empty : Memo κ α).outputs compute items = items.map fun i => compute i.input := rfl

end InlineIcons.Memo
