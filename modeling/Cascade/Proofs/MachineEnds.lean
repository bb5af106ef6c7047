import Cascade.Proofs.MachineRuns

/-!
# Steps that come to an end

A step of the machine may break down or go on for ever. Here it is said of steps that they come to
an end, and how many tokens they use up: a step takes tokens from the front of those ahead
(`Machine.Ends`), and if it succeeds it has taken so many at least (`Machine.Uses`). Steps are put
together by adding what they use up. Nothing is asked of the limit or the depth of the machine.
-/
namespace Cascade

namespace Machine

variable {α β : Type} {machine : Machine} {least more total : Nat}

/-- On the machine the step comes to an end. It used up tokens from those ahead, in their order, and
its value and the machine after it are as told. -/
def Ends (step : Run α) (machine : Machine) (told : α → Machine → Prop) : Prop :=
  ∃ value later, (step.run machine).run = some (.ok (value, later)) ∧
    later.ahead <:+ machine.ahead ∧ told value later

/-- On the machine the step comes to an end, and if it succeeds it has used up so many tokens at
least. -/
def Uses (least : Nat) (step : Run (Except SyntaxError α)) (machine : Machine) : Prop :=
  Ends step machine fun result later =>
    ∀ value, result = .ok value → later.ahead.length + least ≤ machine.ahead.length

/-- What a step is said to do with the session of the machine it does with the machine. -/
theorem Does.ends {step : Run α} {value : α} {after : Session}
    (does : Does step machine.depth machine.session value after)
    (behind : after.ahead <:+ machine.ahead) :
    Ends step machine fun found later => found = value ∧ later.ahead = after.ahead := by
  obtain ⟨later, ran, there, _⟩ := does machine rfl rfl
  have ahead : later.ahead = after.ahead := congrArg Session.ahead there
  exact ⟨value, later, ran, ahead ▸ behind, rfl, ahead⟩

namespace Ends

variable {step : Run α} {next : α → Run β} {told : α → Machine → Prop}
  {outcome : β → Machine → Prop}

/-- Steps that come to an end one after the other come to an end. -/
theorem bind (first : Ends step machine told)
    (second : ∀ value later, later.ahead <:+ machine.ahead → told value later →
      Ends (next value) later outcome) : Ends (step >>= next) machine outcome := by
  obtain ⟨value, later, ran, early, here⟩ := first
  obtain ⟨result, final, done, late, there⟩ := second value later early here
  exact ⟨result, final, (run_bind ran).trans done, late.trans early, there⟩

/-- A step comes to an end in other words. -/
theorem imp {other : α → Machine → Prop} (ends : Ends step machine told)
    (implies : ∀ value later, told value later → other value later) : Ends step machine other := by
  obtain ⟨value, later, ran, early, here⟩ := ends
  exact ⟨value, later, ran, early, implies value later here⟩

/-- The token in view is taken. -/
theorem advance {token : Token} {rest : List Token} (first : machine.ahead = token :: rest) :
    Ends Machine.advance machine fun taken later => taken = token ∧ later.ahead = rest := by
  have does : Does Machine.advance machine.depth machine.session token _ := .advance first
  apply does.ends
  show rest <:+ machine.ahead
  rw [first]
  exact List.suffix_cons token rest

/-- To look at the token in view changes nothing, and only a token that is there is accepted. -/
theorem peek (accept : TokenKind → Option β) (machine : Machine) :
    Ends (peek? accept) machine fun found later =>
      later.ahead = machine.ahead ∧ (found ≠ none → machine.ahead ≠ []) := by
  refine ⟨machine.current.bind fun token => accept token.kind, machine, rfl, List.suffix_refl _,
    rfl, fun accepted nothing => accepted ?_⟩
  have empty : machine.session.ahead = [] := nothing
  rw [current_eq_head?, empty]
  rfl

/-- The token in view is taken if it is accepted. -/
theorem eat (accept : TokenKind → Option β) (machine : Machine) :
    Ends (eat? accept) machine fun found later =>
      match found with
      | none => later.ahead = machine.ahead
      | some (_, token) => machine.ahead = token :: later.ahead := by
  cases found : take? accept machine.session.ahead with
  | none =>
    have does : Does (eat? accept) machine.depth machine.session none machine.session :=
      .eat_none (take?_eq_none.mp found)
    refine (does.ends (List.suffix_refl _)).imp fun value later told => ?_
    obtain ⟨rfl, same⟩ := told
    exact same
  | some taken =>
    obtain ⟨value, token, rest, first⟩ := taken
    have accepted := take?_accepted found
    have does : Does (eat? accept) machine.depth machine.session (some (value, token)) _ :=
      .eat first accepted
    have behind : rest <:+ machine.session.ahead := suffix_behind first
    refine (does.ends behind).imp fun value later told => ?_
    obtain ⟨rfl, same⟩ := told
    have first : machine.ahead = token :: rest := first
    show machine.ahead = token :: later.ahead
    rw [first, same]
    rfl

/-- What is stored takes no token. -/
theorem store (change : Ast → α × Ast) (machine : Machine) :
    Ends (modifyGet fun machine =>
      ((change machine.ast).1, { machine with ast := (change machine.ast).2 })) machine
      fun _ later => later.ahead = machine.ahead :=
  ⟨_, _, rfl, List.suffix_refl _, rfl⟩

end Ends

/-- Where tokens are ahead the first one is in view. -/
theorem inView {machine : Machine} (more : machine.ahead ≠ []) : machine.current ≠ none := by
  intro none
  apply more
  rw [ahead, none]

/-- Where a token is in view it is the first one ahead. -/
theorem ahead_of_inView {machine : Machine} (viewed : machine.current ≠ none) :
    ∃ token rest, machine.ahead = token :: rest := by
  obtain ⟨token, there⟩ := Option.ne_none_iff_exists'.mp viewed
  exact ⟨token, _, by rw [ahead, there]⟩

namespace Uses

variable {step : Run (Except SyntaxError α)}
  {next : Except SyntaxError α → Run (Except SyntaxError β)}

/-- A value is given without a token for it. -/
theorem pure (result : Except SyntaxError α) (machine : Machine) : Uses 0 (pure result) machine :=
  ⟨result, machine, rfl, List.suffix_refl _, fun _ _ => Nat.le_refl _⟩

/-- What failed may be said to have used up anything if it had succeeded. -/
theorem error (error : SyntaxError) (least : Nat) (machine : Machine) :
    Uses least (Pure.pure (.error error) : Run (Except SyntaxError α)) machine :=
  ⟨.error error, machine, rfl, List.suffix_refl _, nofun⟩

/-- A failure is reported and is an error. -/
theorem fail (failure : ParseContext → List Token → Failure) (least : Nat) (machine : Machine) :
    Uses least (Machine.fail failure : Run (Except SyntaxError α)) machine :=
  ⟨_, _, rfl, List.suffix_refl _, nofun⟩

/-- What uses up tokens uses up fewer. -/
theorem fewer (uses : Uses more step machine) (enough : least ≤ more) : Uses least step machine :=
  Ends.imp uses fun _ later told value success =>
    Nat.le_trans (Nat.add_le_add_left enough later.ahead.length) (told value success)

/-- Behind a step that does not move on, what is used up is used up in all. -/
theorem behind {step : Run β} {next : β → Run (Except SyntaxError α)} {told : β → Machine → Prop}
    (first : Ends step machine told)
    (still : ∀ value later, told value later → later.ahead = machine.ahead)
    (second : ∀ value later, told value later → Uses least (next value) later) :
    Uses least (step >>= next) machine := by
  refine first.bind fun value later early here => ?_
  refine (second value later here).imp fun result final told found success => ?_
  rw [← still value later here]
  exact told found success

/-- Behind a token one token more is used up. -/
theorem token {token : Token} {rest : List Token} {next : Token → Run (Except SyntaxError α)}
    (first : machine.ahead = token :: rest)
    (second : ∀ later, later.ahead = rest → Uses least (next token) later) :
    Uses (least + 1) (advance >>= next) machine := by
  refine (Ends.advance first).bind fun taken later early here => ?_
  obtain ⟨rfl, same⟩ := here
  refine (second later same).imp fun result final told found success => ?_
  have spent := told found success
  rw [first, List.length_cons, ← same]
  omega

/-- A node is stored without a token for it. -/
theorem stored (node : Node) (span : Span) (machine : Machine) :
    Uses 0 (do return (.ok (← push node span) : Except SyntaxError Handle)) machine :=
  behind (Ends.store (·.push node span) machine) (fun _ _ same => same)
    fun handle later _ => .pure (.ok handle) later

/-- A token that is a node on its own is used up. -/
theorem literal (node : Node) (viewed : machine.current ≠ none) :
    Uses 1 (Machine.literal node) machine := by
  obtain ⟨taken, rest, first⟩ := ahead_of_inView viewed
  exact token first fun later _ => .stored node taken.span later

/-- A token that is a node with a text is used up. -/
theorem textual (text : String) (node : Symbol → Node) (viewed : machine.current ≠ none) :
    Uses 1 (Machine.textual text node) machine := by
  obtain ⟨taken, rest, first⟩ := ahead_of_inView viewed
  apply token first
  intro later _
  apply behind (Ends.store (·.intern text) later) (fun _ _ same => same)
  exact fun symbol final _ => .stored (node symbol) taken.span final

/-- What follows depends on whether the token in view is accepted. If so it is used up. -/
theorem eaten {accept : TokenKind → Option β}
    {next : Option (β × Token) → Run (Except SyntaxError α)}
    (absent : ∀ later : Machine, later.ahead = machine.ahead → Uses least (next none) later)
    (present : ∀ (value : β) (token : Token) (later : Machine),
      machine.ahead = token :: later.ahead → Uses more (next (some (value, token))) later)
    (enough : least ≤ more + 1) : Uses least (eat? accept >>= next) machine := by
  refine (Ends.eat accept machine).bind fun found later _ told => ?_
  cases found with
  | none =>
    refine (absent later told).imp fun result final spent value success => ?_
    rw [← told]
    exact spent value success
  | some taken =>
    refine (present taken.1 taken.2 later told).imp fun result final spent value success => ?_
    have left := spent value success
    have first : machine.ahead.length = later.ahead.length + 1 := by rw [told, List.length_cons]
    omega

/-- What follows a success adds to what is used up. What follows an error is an error. -/
theorem andThen (first : Uses least step machine) (enough : total ≤ least + more)
    (failed : ∀ error later, Uses total (next (.error error)) later)
    (second : ∀ value later, later.ahead <:+ machine.ahead →
      later.ahead.length + least ≤ machine.ahead.length → Uses more (next (.ok value)) later) :
    Uses total (step >>= next) machine := by
  refine Ends.bind first fun result later early spent => ?_
  cases result with
  | error error =>
    refine (failed error later).imp fun _ final told found success => ?_
    exact Nat.le_trans (told found success) early.length_le
  | ok value =>
    have before := spent value rfl
    refine (second value later early before).imp fun _ final told found success => ?_
    have after := told found success
    omega

/-- The mark that closes a bracket is used up. -/
theorem closing (close : Mark) (opener : Token) (machine : Machine) :
    Uses 1 (expectClosing close opener) machine := by
  rw [expectClosing]
  apply eaten _ _ (Nat.le_refl (0 + 1))
  · exact fun later _ => fail _ 1 later
  · exact fun _ _ later _ => pure (.ok ()) later

/-- What is done a level deeper adds to what is used up, if the limit allows it, and is an error
otherwise. -/
theorem nested (machine : Machine) {failure : ParseContext → List Token → Failure}
    (first : ∀ later : Machine, later.ahead = machine.ahead → Uses least step later)
    (enough : total ≤ least + more)
    (failed : ∀ error later, Uses total (next (.error error)) later)
    (second : ∀ value later, Uses more (next (.ok value)) later) :
    Uses total (do
      if ← descend then
        let result ← step
        ascend
        next result
      else Machine.fail failure) machine := by
  have ascended (later : Machine) : Ends ascend later fun _ final => final.ahead = later.ahead :=
    ⟨(), _, rfl, List.suffix_refl _, rfl⟩
  by_cases within : machine.depth < machine.limit
  · let deeper : Machine := { machine with depth := machine.depth + 1 }
    obtain ⟨result, later, ran, early, spent⟩ :
        Uses total (step >>= fun result => ascend >>= fun _ => next result) deeper := by
      apply (first deeper rfl).andThen enough
      · exact fun error later => behind (ascended later) (fun _ _ same => same)
          fun _ final _ => failed error final
      · exact fun value later _ _ => behind (ascended later) (fun _ _ same => same)
          fun _ final _ => second value final
    exact ⟨result, later, (run_bind (descend_within within)).trans ran, early, spent⟩
  · have beyond := descend_beyond (Nat.le_of_not_lt within)
    obtain ⟨result, later, ran, early, spent⟩ :
        Uses total (Machine.fail failure : Run (Except SyntaxError β)) machine :=
      Uses.fail failure total machine
    exact ⟨result, later, (run_bind beyond).trans ran, early, spent⟩

end Uses

end Machine

end Cascade
