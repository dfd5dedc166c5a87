import SlotTable.Proofs.Walk.Stop

/-!
# What a walk asks about

A walk asks about the keys in the first slots of its path, one by one, and the landing tells how
many these are (`stop_ends`). None but the last one matches. How they compare decides the walk
(`stop_eq_iff`). A walk that passes the first slots of its path goes on as a walk over the others
(`stop_append`).
-/
namespace SlotTable.Walk

variable {K : Type} {slot : Nat → Option K} {matching : K → K → Bool} {key : K} {path : List Nat}

theorem asked_cons_none {index : Nat} (empty : slot index = none) :
    asked slot matching key (index :: path) = [] := by
  rw [asked, empty]

theorem asked_cons_match {index : Nat} {stored : K} (held : slot index = some stored)
    (answers : matching stored key = true) :
    asked slot matching key (index :: path) = [stored] := by
  simp only [asked, held, if_pos answers]

theorem asked_cons_pass {index : Nat} {stored : K} (held : slot index = some stored)
    (differs : matching stored key = false) :
    asked slot matching key (index :: path) = stored :: asked slot matching key path := by
  simp [asked, held, differs]

theorem stop_cons_none {index : Nat} (empty : slot index = none) :
    stop slot matching key (index :: path) = .vacant index := by
  rw [stop, empty]

theorem stop_cons_match {index : Nat} {stored : K} (held : slot index = some stored)
    (answers : matching stored key = true) :
    stop slot matching key (index :: path) = .occupied index := by
  simp only [stop, held, if_pos answers]

theorem stop_cons_pass {index : Nat} {stored : K} (held : slot index = some stored)
    (differs : matching stored key = false) :
    stop slot matching key (index :: path) = stop slot matching key path := by
  simp [stop, held, differs]

/-- A slot is empty, or its key matches, or it does not. -/
theorem slot_cases (slot : Nat → Option K) (matching : K → K → Bool) (key : K) (index : Nat) :
    slot index = none ∨
      (∃ stored, slot index = some stored ∧ matching stored key = true) ∨
      ∃ stored, slot index = some stored ∧ matching stored key = false := by
  cases held : slot index with
  | none => exact .inl rfl
  | some stored =>
    cases answers : matching stored key with
    | true => exact .inr (.inl ⟨stored, rfl, answers⟩)
    | false => exact .inr (.inr ⟨stored, rfl, answers⟩)

/-- Where a walk over a path ends that asks about so many keys. -/
inductive Ends (path : List Nat) : Landing → Nat → Prop where
  | vacant {index count : Nat} (reached : path[count]? = some index) :
      Ends path (.vacant index) count
  | occupied {index count : Nat} (reached : path[count]? = some index) :
      Ends path (.occupied index) (count + 1)
  | exhausted : Ends path .exhausted path.length

theorem Ends.cons {landing : Landing} {count : Nat} (ends : Ends path landing count) (index : Nat) :
    Ends (index :: path) landing (count + 1) := by
  cases ends with
  | vacant reached => exact .vacant reached
  | occupied reached => exact .occupied reached
  | exhausted => exact .exhausted

theorem stop_ends (slot : Nat → Option K) (matching : K → K → Bool) (key : K) (path : List Nat) :
    Ends path (stop slot matching key path) (asked slot matching key path).length := by
  induction path with
  | nil => exact .exhausted
  | cons index rest ih =>
    obtain empty | ⟨stored, held, answers⟩ | ⟨stored, held, differs⟩ :=
      slot_cases slot matching key index
    · rw [stop_cons_none empty, asked_cons_none empty]
      exact .vacant rfl
    · rw [stop_cons_match held answers, asked_cons_match held answers]
      exact .occupied rfl
    · rw [stop_cons_pass held differs, asked_cons_pass held differs]
      exact ih.cons index

theorem getElem?_asked {place : Nat} {stored : K}
    (asks : (asked slot matching key path)[place]? = some stored) :
    (∃ index, path[place]? = some index ∧ slot index = some stored) ∧
      (place + 1 < (asked slot matching key path).length → matching stored key = false) := by
  induction path generalizing place with
  | nil => simp [asked] at asks
  | cons index rest ih =>
    obtain empty | ⟨first, held, answers⟩ | ⟨first, held, differs⟩ :=
      slot_cases slot matching key index
    · simp [asked_cons_none empty] at asks
    · rw [asked_cons_match held answers] at asks ⊢
      cases place with
      | zero =>
        cases asks
        exact ⟨⟨index, rfl, held⟩, fun more => absurd more (Nat.lt_irrefl 1)⟩
      | succ place => simp at asks
    · rw [asked_cons_pass held differs] at asks ⊢
      cases place with
      | zero =>
        cases asks
        exact ⟨⟨index, rfl, held⟩, fun _ => differs⟩
      | succ place =>
        obtain ⟨stands, passes⟩ := ih asks
        exact ⟨stands, fun more => passes (Nat.lt_of_succ_lt_succ more)⟩

theorem length_asked_le (slot : Nat → Option K) (matching : K → K → Bool) (key : K)
    (path : List Nat) :
    (asked slot matching key path).length ≤ path.countP fun index => (slot index).isSome := by
  induction path with
  | nil => exact Nat.le_refl 0
  | cons index rest ih =>
    obtain empty | ⟨stored, held, answers⟩ | ⟨stored, held, differs⟩ :=
      slot_cases slot matching key index
    · rw [asked_cons_none empty]
      exact Nat.zero_le _
    · rw [asked_cons_match held answers, List.countP_cons_of_pos (by simp [held])]
      simp
    · rw [asked_cons_pass held differs, List.countP_cons_of_pos (by simp [held])]
      exact Nat.succ_le_succ ih

/-- A walk that finds its key has asked about it. -/
theorem asked_ne_nil {index : Nat} (found : stop slot matching key path = .occupied index) :
    asked slot matching key path ≠ [] := by
  intro none
  have ends := stop_ends slot matching key path
  rw [found, none, List.length_nil] at ends
  cases ends

/-- A walk is the same under another match rule exactly when the rules agree on the keys that it
asks about. -/
theorem stop_eq_iff {other : K → K → Bool} :
    (stop slot other key path = stop slot matching key path ∧
        asked slot other key path = asked slot matching key path) ↔
      ∀ stored ∈ asked slot matching key path, other stored key = matching stored key := by
  induction path with
  | nil => simp [stop, asked]
  | cons index rest ih =>
    obtain empty | ⟨stored, held, answers⟩ | ⟨stored, held, differs⟩ :=
      slot_cases slot matching key index
    · simp [stop_cons_none empty, asked_cons_none empty]
    · rw [stop_cons_match held answers, asked_cons_match held answers, List.forall_mem_singleton,
        answers]
      cases too : other stored key with
      | true => simp [stop_cons_match held too, asked_cons_match held too]
      | false =>
        rw [stop_cons_pass held too, asked_cons_pass held too]
        refine iff_of_false (fun same => ?_) Bool.false_ne_true
        exact asked_ne_nil same.1 (List.cons.inj same.2).2
    · rw [stop_cons_pass held differs, asked_cons_pass held differs, List.forall_mem_cons, differs,
        ← ih]
      cases too : other stored key with
      | true =>
        rw [stop_cons_match held too, asked_cons_match held too]
        refine iff_of_false (fun same => ?_) fun same => Bool.noConfusion same.1
        exact asked_ne_nil same.1.symm (List.cons.inj same.2).2.symm
      | false => simp [stop_cons_pass held too, asked_cons_pass held too]

theorem stop_append {front : List Nat} (passed : ∀ index ∈ front, Passes slot matching key index)
    (back : List Nat) :
    stop slot matching key (front ++ back) = stop slot matching key back := by
  induction front with
  | nil => rfl
  | cons index rest ih =>
    obtain ⟨⟨stored, held, differs⟩, later⟩ := List.forall_mem_cons.mp passed
    rw [List.cons_append, stop_cons_pass held differs, ih later]

/-- A walk sees no slot outside its path. -/
theorem stop_eq_of_agree {other : Nat → Option K}
    (same : ∀ index ∈ path, other index = slot index) :
    stop other matching key path = stop slot matching key path := by
  induction path with
  | nil => rfl
  | cons index rest ih =>
    obtain ⟨here, later⟩ := List.forall_mem_cons.mp same
    rw [stop, stop, here, ih later]

end SlotTable.Walk
