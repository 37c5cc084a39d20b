import RouteDepot.Proofs.Locals.Asking

/-! # What a run comes to

The statements that a direct run comes to, also in blocks and in the methods that it calls, and the arguments that it
evaluates there. A fault at any of them is the outcome of the whole run, which keeps what was defined before.
-/

namespace RouteDepot.RouteClass

/-- The body of the method of a class that has a name and no parameters. -/
def ClassDeclaration.plainBody? (c : ClassDeclaration) (name : String) : Option Block :=
  (c.methods.find? fun m => m.name.name == name && m.parameters.isEmpty).bind (·.body)

namespace Direct

open Operand (resolveText)

variable {c : ClassDeclaration} {env : Environment} {locals : Locals} {d d' : Definitions} {halt : Halt}

/-- Calling a method with room left is running its body. -/
theorem call_succ (c : ClassDeclaration) (env : Environment) (room : Nat) (name : String) :
    call c env (room + 1) name =
      match c.plainBody? name with
      | some body => do
        let _ ← runStatements env (call c env room) [] body.body
        return ()
      | none => throw .meaningless := by
  rw [call, ClassDeclaration.plainBody?]
  cases c.methods.find? _ with
  | none => rfl
  | some m => cases hasBody : m.body <;> simp [hasBody]

/-- A failing computation is not gone on with. -/
theorem run_bind_of_error {α β : Type} {first : Exec α} {next : α → Exec β}
    (failed : first.run.run d = (.error halt, d')) : (first >>= next).run.run d = (.error halt, d') := by
  rw [ExceptT.run_bind_state, failed]

/-! ### Statements -/

/-- Where a run stands: with room for a number of open calls, among local variables, in front of the statements that
are left of a block. -/
structure Point where
  room : Nat
  locals : Locals
  rest : List Statement
  definitions : Definitions

/-- What the statements that are left come to. -/
def Point.run (c : ClassDeclaration) (env : Environment) (s : Point) : Except Halt (Option Locals) × Definitions :=
  (runStatements env (call c env s.room) s.locals s.rest).run.run s.definitions

/-- The points that a run comes to: behind statements that go on, in blocks, and in the methods that are called. -/
inductive Reaches (c : ClassDeclaration) (env : Environment) : Point → Point → Prop
  | refl (s : Point) : Reaches c env s s
  | next {room : Nat} {locals after : Locals} {statement : Statement} {later : List Statement} {d d' : Definitions}
      {t : Point} : (runStatement env (call c env room) locals statement).run.run d = (.ok (some after), d') →
      Reaches c env ⟨room, after, later, d'⟩ t → Reaches c env ⟨room, locals, statement :: later, d⟩ t
  | inBlock {room : Nat} {locals : Locals} {body later : List Statement} {span : Span} {d : Definitions} {t : Point} :
      Reaches c env ⟨room, locals, body, d⟩ t → Reaches c env ⟨room, locals, .block body span :: later, d⟩ t
  | inCall {room : Nat} {locals : Locals} {e : Expression} {name : String} {body : Block} {later : List Statement}
      {d : Definitions} {t : Point} : calledName? e = some name → name ∈ env.methods → c.plainBody? name = some body →
      Reaches c env ⟨room, [], body.body, d⟩ t → Reaches c env ⟨room + 1, locals, .expression e :: later, d⟩ t

theorem Reaches.trans {s t u : Point} (first : Reaches c env s t) (second : Reaches c env t u) : Reaches c env s u := by
  induction first with
  | refl => exact second
  | next ran _ ih => exact .next ran (ih second)
  | inBlock _ ih => exact .inBlock (ih second)
  | inCall called declared found _ ih => exact .inCall called declared found (ih second)

/-- A fault at a point that a run comes to is the fault of the run. -/
theorem Reaches.run_eq_error {s t : Point} (reaches : Reaches c env s t) (failed : t.run c env = (.error halt, d)) :
    s.run c env = (.error halt, d) := by
  induction reaches with
  | refl => exact failed
  | next ran _ ih =>
    rw [Point.run, runStatements, ExceptT.run_bind_state, ran]
    exact ih failed
  | inBlock _ ih =>
    rw [Point.run, runStatements, runStatement]
    exact run_bind_of_error (run_bind_of_error (ih failed))
  | @inCall room locals e name body later d t called declared found _ ih =>
    have calls : runExpression env (call c env (room + 1)) locals e = call c env (room + 1) name := by
      simp [runExpression, called, Option.filter, declared]
    rw [Point.run, runStatements, runStatement, calls, call_succ, found]
    exact run_bind_of_error (run_bind_of_error (run_bind_of_error (ih failed)))

/-! ### Evaluated arguments -/

/-- A chain comes to evaluating the arguments of one of its calls, when those before it succeed. -/
inductive ChainEvaluates (env : Environment) (locals : Locals) (d : Definitions) :
    Expression → List Expression → Definitions → Prop
  | first {callee : Ident} {args : List Expression} {span : Span} :
      ChainEvaluates env locals d (.call callee args span) args d
  | firstOfThis {at' : Span} {callee : Ident} {args : List Expression} {span : Span} :
      ChainEvaluates env locals d (.callOn (.this at') callee args span) args d
  | earlier {target : Expression} {callee : Ident} {given args : List Expression} {span : Span} {d' : Definitions} :
      ChainEvaluates env locals d target args d' →
      ChainEvaluates env locals d (.callOn target callee given span) args d'
  | last {target : Expression} {callee : Ident} {args : List Expression} {span : Span} {receiver : Receiver}
      {d' : Definitions} : (chain env locals target).run.run d = (.ok receiver, d') →
      ChainEvaluates env locals d (.callOn target callee args span) args d'

/-- A statement comes to evaluating the arguments of a call, or the message of an exception. -/
inductive Evaluates (env : Environment) (locals : Locals) (d : Definitions) :
    Statement → List Expression → Definitions → Prop
  | chain {e : Expression} {args : List Expression} {d' : Definitions} :
      (calledName? e).filter (· ∈ env.methods) = none → ChainEvaluates env locals d e args d' →
      Evaluates env locals d (.expression e) args d'
  | message {type : DottedName} {message : Expression} {more : List Expression} {whole span : Span} :
      Evaluates env locals d (.throw (.new type (message :: more) whole) span) [message] d

/-- A call other than on this instance goes on with the chain before it. -/
theorem chain_callOn {target : Expression} (notThis : ∀ span, target ≠ .this span) (callee : Ident)
    (args : List Expression) (span : Span) :
    chain env locals (.callOn target callee args span) = (do
      let receiver ← chain env locals target
      receiver.call callee.name (← Exec.ofExcept (env.arguments locals args))) := by
  rw [chain]
  exact notThis

/-- A chain fails when the arguments that it comes to cannot be evaluated. -/
theorem ChainEvaluates.run_eq_error {e : Expression} {args : List Expression}
    (evaluates : ChainEvaluates env locals d e args d') (failed : env.arguments locals args = .error halt) :
    (chain env locals e).run.run d = (.error halt, d') := by
  induction evaluates with
  | first | firstOfThis =>
    rw [chain, failed]
    rfl
  | earlier inner ih =>
    rw [chain_callOn (by rintro _ rfl; cases inner)]
    exact run_bind_of_error (ih failed)
  | last before =>
    rw [chain_callOn (by rintro _ rfl; cases before), ExceptT.run_bind_state, before, failed]
    rfl

/-- A statement fails when an argument that it comes to asks for a text that does not resolve. -/
theorem Evaluates.exists_run_eq_error {statement : Statement} {args : List Expression}
    (evaluates : Evaluates env locals d statement args d') {arg : Expression} (member : arg ∈ args) {text : String}
    (asks : env.Asks locals arg text) {fault : ConfigureError} (unresolved : resolveText env.reach text = .error fault)
    (call : String → Exec Unit) :
    ∃ halt, (runStatement env call locals statement).run.run d = (.error halt, d') ∧
      ∀ error, halt = .failed error → ∃ arg ∈ args, env.FailsByAsking locals arg error := by
  cases evaluates with
  | @chain e args d' noCall evaluates =>
    obtain ⟨halt, failed⟩ := Environment.exists_arguments_eq_error member asks unresolved
    refine ⟨halt, ?_, fun error same => Environment.failsByAsking_of_arguments (same ▸ failed)⟩
    rw [runStatement, runExpression, noCall]
    exact run_bind_of_error (run_bind_of_error (evaluates.run_eq_error failed))
  | @message type message more whole span =>
    obtain rfl := List.mem_singleton.mp member
    cases evaluated : env.eval locals arg with
    | ok value =>
      obtain ⟨_, resolved⟩ := asks.resolves evaluated
      cases resolved.symm.trans unresolved
    | error halt =>
      refine ⟨halt, ?_, fun error same => ⟨arg, member, Environment.failsByAsking_of_eval (same ▸ evaluated)⟩⟩
      rw [runStatement, raise, evaluated]
      rfl

end Direct

end RouteDepot.RouteClass
