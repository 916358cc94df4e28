import Vtl.Expr.CompileLog
import Vtl.Expr.Resolve
import Vtl.Program

namespace Vtl

/-- Why a source text gave no result. -/
inductive Failure where
  | parsing (e : SyntaxError)
  | typing (e : CompileError)
  | resolution (e : ResolveError)
deriving DecidableEq

def Failure.message : Failure → String
  | .parsing e => e.message
  | .typing e => e.message
  | .resolution e => e.message

namespace Bindings

/-- What an expression is compiled against when it is run under the bindings. -/
def scope (bindings : Bindings) (policy : KeyPolicy) : Scope := ⟨.infer bindings, policy⟩

/-- Compiles an expression with the types of the bound values and resolves it. -/
def run (bindings : Bindings) (policy : KeyPolicy) (tree : Tree) : Except Failure Value := do
  let e ← (tree.compile (bindings.scope policy)).mapError .typing
  (e.resolve bindings).mapError .resolution

def runLog (bindings : Bindings) (policy : KeyPolicy) (tree : Tree) : List LogRecord :=
  tree.compileLog (bindings.scope policy) ++
    match tree.compile (bindings.scope policy) with
    | .ok e => e.resolveLog bindings
    | .error _ => []

def evaluate (bindings : Bindings) (policy : KeyPolicy) (source : String) :
    Except Failure Value := do
  let tree ← (Tree.parse source).mapError .parsing
  bindings.run policy tree

def evaluateLog (bindings : Bindings) (policy : KeyPolicy) (source : String) : List LogRecord :=
  match Tree.parse source with
  | .ok tree => bindings.runLog policy tree
  | .error _ => []

end Bindings

/-- The value of a source text under some bindings, rows being joined by typed keys. -/
def interpret (source : String) (bindings : Bindings) : Except Failure Value :=
  bindings.evaluate .typed source

/-- What a statement did. -/
inductive Outcome where
  | assigned (name : String) (value : Value)
  | evaluated (value : Value)

namespace Statement

def outcome (statement : Statement) (value : Value) : Outcome :=
  match statement.target with
  | some name => .assigned name value
  | none => .evaluated value

/-- The bindings after a statement whose expression has the given value. -/
def store (statement : Statement) (value : Value) (bindings : Bindings) : Bindings :=
  match statement.target with
  | some name => bindings.put name value
  | none => bindings

end Statement

namespace Program

/-- Runs statements in order. The first failure ends the run and keeps what was bound before it. -/
def run (policy : KeyPolicy) : Program → Bindings → Except Failure (List Outcome) × Bindings
  | [], bindings => (.ok [], bindings)
  | statement :: rest, bindings =>
    match bindings.run policy statement.expression with
    | .error e => (.error e, bindings)
    | .ok value =>
      let (outcomes, final) := run policy rest (statement.store value bindings)
      (outcomes.map (statement.outcome value :: ·), final)

def runLog (policy : KeyPolicy) : Program → Bindings → List LogRecord
  | [], _ => []
  | statement :: rest, bindings =>
    ⟨.debug, s!"Executing statement at {statement.span.place}"⟩
      :: bindings.runLog policy statement.expression ++
      match bindings.run policy statement.expression with
      | .error _ => []
      | .ok value => runLog policy rest (statement.store value bindings)

end Program

/-- Programs run one after the other on the same bindings. -/
structure Session where
  bindings : Bindings
  policy : KeyPolicy

namespace Session

def bind (session : Session) (name : String) (value : Value) : Session :=
  { session with bindings := session.bindings.put name value }

def evaluate (session : Session) (source : String) : Except Failure Value :=
  session.bindings.evaluate session.policy source

/-- Runs a program. A source that does not parse changes nothing. -/
def execute (session : Session) (source : String) : Except Failure (List Outcome) × Session :=
  match Program.parse source with
  | .error e => (.error (.parsing e), session)
  | .ok program =>
    let (outcomes, bindings) := program.run session.policy session.bindings
    (outcomes, { session with bindings })

def executeLog (session : Session) (source : String) : List LogRecord :=
  match Program.parse source with
  | .error _ => []
  | .ok program =>
    ⟨.info, s!"Executing {program.length} statement(s)"⟩
      :: program.runLog session.policy session.bindings

end Session

end Vtl
