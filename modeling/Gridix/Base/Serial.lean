import Mathlib.Data.List.Forall2

/-!
# Serialised transactions

A transaction either commits the state it computed or raises and leaves the
state alone.
-/

namespace Serial

open List

variable {State Input Error : Type}

def transact (operation : State → Except Error State) (state : State) : State :=
  match operation state with
  | .ok moved => moved
  | .error _ => state

theorem transact_cases (operation : State → Except Error State) (state : State) :
    operation state = .ok (transact operation state) ∨ transact operation state = state := by
  unfold transact
  cases operation state with
  | ok => exact Or.inl rfl
  | error => exact Or.inr rfl

/-- The states that allowed inputs lead to from a start. -/
inductive Reaches (next : Input → State → State)
    (allowed : State → Input → Prop) (start : State → Prop) :
    State → Prop where
  | start {state : State} (initial : start state) : Reaches next allowed start state
  | step {state : State} (reached : Reaches next allowed start state)
      (input : Input) (permitted : allowed state input) :
      Reaches next allowed start (next input state)

section

variable {next : Input → State → State}
  {allowed : State → Input → Prop} {start : State → Prop} {state : State}
  {permissive : State → Input → Prop} {inputs : List Input}

theorem Reaches.invariant {Holds : State → Prop} (initially : ∀ state, start state → Holds state)
    (preserved : ∀ state input, Holds state → allowed state input → Holds (next input state))
    {state : State} (reached : Reaches next allowed start state) :
    Holds state := by
  induction reached with
  | start initial => exact initially _ initial
  | step _ input permitted held => exact preserved _ input held permitted

theorem Reaches.trans {middle : State} (first : Reaches next allowed start middle)
    (second : Reaches next allowed (fun state => state = middle) state) :
    Reaches next allowed start state := by
  induction second with
  | start initial =>
    subst initial
    exact first
  | step _ input permitted reached => exact .step reached input permitted

theorem Reaches.mono (weaker : ∀ state input, allowed state input → permissive state input)
    (reached : Reaches next allowed start state) :
    Reaches next permissive start state := by
  induction reached with
  | start initial => exact .start initial
  | step _ input permitted reached => exact .step reached input (weaker _ input permitted)

/-- The state behind a list of inputs. -/
def run (next : Input → State → State) (inputs : List Input) (state : State) : State :=
  inputs.foldl (fun state input => next input state) state

theorem run_append (first later : List Input) (state : State) :
    run next (first ++ later) state = run next later (run next first state) :=
  foldl_append

/-- Every input of the list is allowed when its turn comes. -/
def AllPermitted (next : Input → State → State)
    (allowed : State → Input → Prop) : List Input → State → Prop
  | [], _ => True
  | input :: rest, state =>
    allowed state input ∧ AllPermitted next allowed rest (next input state)

instance [∀ state input, Decidable (allowed state input)] :
    ∀ inputs state, Decidable (AllPermitted next allowed inputs state)
  | [], _ => instDecidableTrue
  | input :: rest, state =>
    have := instDecidableAllPermitted rest (next input state)
    inferInstanceAs (Decidable (_ ∧ _))

theorem AllPermitted.mono (weaker : ∀ state input, allowed state input → permissive state input)
    (permitted : AllPermitted next allowed inputs state) :
    AllPermitted next permissive inputs state := by
  induction inputs generalizing state with
  | nil => trivial
  | cons input _ ih => exact ⟨weaker state input permitted.1, ih permitted.2⟩

theorem allPermitted_of_forall (always : ∀ input ∈ inputs, ∀ state, allowed state input)
    (state : State) : AllPermitted next allowed inputs state := by
  induction inputs generalizing state with
  | nil => trivial
  | cons input _ ih =>
    exact ⟨always input mem_cons_self state, ih (fun other mem =>
        always other (mem_cons_of_mem _ mem)) _⟩

theorem Reaches.run (reached : Reaches next allowed start state)
    (permitted : AllPermitted next allowed inputs state) :
    Reaches next allowed start (run next inputs state) := by
  induction inputs generalizing state with
  | nil => exact reached
  | cons input _ ih => exact ih (.step reached input permitted.1) permitted.2

end

theorem exists_ok {Value : Type} {outcome : Except Error Value} (good : Value → Bool)
    (held : outcome.toOption.any good = true) :
    ∃ value, outcome = .ok value ∧ good value = true := by
  cases outcome with
  | error => cases held
  | ok value => exact ⟨value, rfl, held⟩

theorem mapError_ok {Failure Value : Type} {source : Except Error Value} {wrap : Error → Failure}
    {value : Value} (ok : source.mapError wrap = .ok value) : source = .ok value := by
  cases source with
  | error => cases ok
  | ok => exact congrArg Except.ok (Except.ok.inj ok)

theorem bind_eq_ok {Value Result : Type} {source : Except Error Value}
    {continuation : Value → Except Error Result} {result : Result} :
    (source >>= continuation) = .ok result ↔
      ∃ value, source = .ok value ∧ continuation value = .ok result := by
  cases source with
  | error =>
    constructor
    · intro success
      cases success
    · rintro ⟨_, no, _⟩
      cases no
  | ok value =>
    constructor
    · intro success
      exact ⟨value, rfl, success⟩
    · rintro ⟨_, found, success⟩
      cases found
      exact success

theorem bind_eq_error {Value Result : Type} {source : Except Error Value}
    {continuation : Value → Except Error Result} {error : Error} :
    (source >>= continuation) = .error error ↔ source = .error error ∨
        ∃ value, source = .ok value ∧ continuation value = .error error := by
  cases source with
  | error =>
    constructor
    · intro failed
      cases failed
      exact .inl rfl
    · rintro (same | ⟨_, no, _⟩)
      · cases same
        rfl
      · cases no
  | ok value =>
    constructor
    · intro failed
      exact .inr ⟨value, rfl, failed⟩
    · rintro (no | ⟨_, found, failed⟩)
      · cases no
      · cases found
        exact failed

theorem forall₂_of_mapM {Value Result : Type} {operation : Value → Except Error Result}
    {items : List Value} {moved : List Result} (ok : items.mapM operation = .ok moved) :
    List.Forall₂ (fun item result => operation item = .ok result) items moved := by
  induction items generalizing moved with
  | nil =>
    cases ok
    exact .nil
  | cons _ _ ih =>
    rw [mapM_cons, bind_eq_ok] at ok
    obtain ⟨_, head, ok⟩ := ok
    obtain ⟨_, tail, ok⟩ := bind_eq_ok.mp ok
    cases ok
    exact .cons head (ih tail)

theorem exists_of_mapM {Value Result : Type} {operation : Value → Except Error Result}
    {items : List Value} {moved : List Result} (ok : items.mapM operation = .ok moved)
    {item : Value} (mem : item ∈ items) :
    ∃ result ∈ moved, operation item = .ok result := by
  have related := forall₂_of_mapM ok
  clear ok
  induction related with
  | nil => cases mem
  | cons head _ ih =>
    rcases mem_cons.mp mem with rfl | later
    · exact ⟨_, mem_cons_self, head⟩
    · obtain ⟨result, here, code⟩ := ih later
      exact ⟨result, mem_cons_of_mem _ here, code⟩

theorem source_of_mapM {Value Result : Type} {operation : Value → Except Error Result}
    {items : List Value} {moved : List Result} (ok : items.mapM operation = .ok moved)
    {result : Result} (mem : result ∈ moved) :
    ∃ item ∈ items, operation item = .ok result := by
  have related := forall₂_of_mapM ok
  clear ok
  induction related with
  | nil => cases mem
  | cons head _ ih =>
    rcases mem_cons.mp mem with rfl | later
    · exact ⟨_, mem_cons_self, head⟩
    · obtain ⟨item, here, code⟩ := ih later
      exact ⟨item, mem_cons_of_mem _ here, code⟩

theorem collect_eq_nil_iff {Value Result : Type}
    {operation : Value → Except Error (List Result)} {items : List Value} :
    (items.mapM operation >>= fun found => .ok found.flatten) =
        (.ok [] : Except Error (List Result)) ↔
      ∀ item ∈ items, operation item = .ok [] := by
  rw [bind_eq_ok]
  induction items with
  | nil =>
    constructor
    · intro _ _ mem
      cases mem
    · intro _
      exact ⟨[], rfl, rfl⟩
  | cons _ _ ih =>
    rw [forall_mem_cons, ← ih]
    constructor
    · rintro ⟨_, ok, nothing⟩
      rw [mapM_cons, bind_eq_ok] at ok
      obtain ⟨_, head, ok⟩ := ok
      obtain ⟨others, tail, ok⟩ := bind_eq_ok.mp ok
      cases ok
      obtain ⟨rfl, none⟩ := append_eq_nil_iff.mp (Except.ok.inj nothing)
      exact ⟨head, others, tail, congrArg Except.ok none⟩
    · rintro ⟨head, others, tail, nothing⟩
      refine ⟨[] :: others, ?_, nothing⟩
      rw [mapM_cons, head, tail]
      rfl

theorem foldlM_invariant {Value : Type} {Holds : State → Prop}
    {operation : State → Value → Except Error State} {items : List Value} {state moved : State}
    (preserved : ∀ state item moved, item ∈ items → Holds state →
      operation state item = .ok moved → Holds moved) (held : Holds state)
    (ok : items.foldlM operation state = .ok moved) :
    Holds moved := by
  induction items generalizing state with
  | nil =>
    cases ok
    exact held
  | cons item _ ih =>
    rw [foldlM_cons, bind_eq_ok] at ok
    obtain ⟨middle, head, tail⟩ := ok
    exact ih (fun state other moved mem =>
        preserved state other moved (mem_cons_of_mem _ mem))
      (preserved state item middle mem_cons_self held head) tail

end Serial
