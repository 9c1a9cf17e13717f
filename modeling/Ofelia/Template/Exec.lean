import Ofelia.Template.Funcs

/-! Execution of parsed templates on a `*WebhookTemplateData` (`exec.go`), and
the repository's `executeTemplate` and `executeTemplateForBody`.

Evaluation follows `exec.go`. A command is a field chain, a variable, a
function, a parenthesized pipeline or a constant. A field is read from a
struct, or names a method, which `evalCall` calls after it checks the number
of arguments and the result types. Arguments are evaluated for their
parameter's type, and constants are typed by the parameter. The variables
form a stack threaded through evaluation: declarations push, assignments
set, and `if`, `with` and `range` pop at their end.

The walk returns its output with a flow, normal or a `{{break}}` or
`{{continue}}` on its way to the enclosing `range`, which is how the panics
`walkBreak` and `walkContinue` travel in Go. `{{template}}` runs a named tree
with only `$` defined. The walk is given the template calls it may still
make, so that the 100000th nested call fails as Go's `maxExecDepth` makes it.
The output is dropped on the first error, since `executeTemplate` returns `""`
with an error.

`executeTemplateForBody` marshals an object or array body, runs the text as one
template, and returns the result if it decodes as JSON. The result is not
compared with the body: a rendered value is copied into the JSON text as it
is, unescaped. -/

namespace Ofelia.Template

/-- The execution errors, one per `errorf` site of `exec.go`; the call of a
function that returns an error or panics is `errorCalling`, and what the
model leaves out is `unsupported`. The message of `rangeCantIterate` prints
the value with `%v`, the data as its struct. -/
inductive ExecError where
  | incomplete (name : GoString)
  | cantEvaluateField (name : GoString) (type : GoType)
  | unexportedField (name : GoString) (type : GoType)
  | hasArguments (name : GoString)
  | notAFunction (arg : GoString)
  | nilIsNotACommand
  | nilIndirection (chain : GoString)
  | undefinedVariable (name : GoString)
  | wrongNumberOfArgs (name : GoString) (want got : Nat)
  | wrongNumberOfArgsAtLeast (name : GoString) (want got : Nat)
  | tooManyResults (name : GoString) (n : Nat)
  | secondResultNotError (name : GoString) (type : GoType)
  | wrongType (expected got : GoType)
  | invalidValue (expected : GoType)
  | expected (kind arg : GoString)
  | cannotAssignNil (type : GoType)
  | cantHandle (arg : GoString) (type : GoType)
  | overflowsInt (text : GoString)
  | errorCalling (name : GoString) (err : GoString)
  | rangeCantIterate (value : Val)
  | rangeIntTwoVariables (value : Val)
  | templateNotDefined (name : GoString)
  | maxDepth
  | unsupported (construct : GoString)
  deriving DecidableEq, Repr

/-! ### Variables -/

/-- The variables in scope, the newest first: `s.vars` read from its top. -/
abbrev Vars := List (GoString × Val)

/-- `varValue`: the newest variable of the name. -/
def Vars.value (vars : Vars) (name : GoString) : Except ExecError Val :=
  match vars.lookup name with
  | some v => .ok v
  | none => .error (.undefinedVariable name)

/-- `setVar`: the newest variable of the name takes the value. -/
def Vars.set (name : GoString) (v : Val) : Vars → Except ExecError Vars
  | [] => .error (.undefinedVariable name)
  | (n, w) :: rest => if n = name then .ok ((n, v) :: rest) else (Vars.set name v rest).map ((n, w) :: ·)

/-- `setTopVar(k + 1)`: the `k`-th newest variable takes the value. -/
def Vars.setTop : Nat → Val → Vars → Vars
  | _, _, [] => []
  | 0, v, (n, _) :: rest => (n, v) :: rest
  | k + 1, v, p :: rest => p :: Vars.setTop k v rest

/-- `pop(mark)`: the variables pushed since the stack held `mark` leave. -/
def Vars.pop (vars : Vars) (mark : Nat) : Vars := vars.drop (vars.length - mark)

@[simp] theorem Vars.pop_length (vars : Vars) : vars.pop vars.length = vars := by
  simp [Vars.pop]

/-- A pipeline's declarations: pushed, or with `=` assigned. -/
def declare (isAssign : Bool) (decl : List GoString) (v : Val) (vars : Vars) : Except ExecError Vars :=
  decl.foldlM (fun vars name => if isAssign then vars.set name v else .ok ((name, v) :: vars)) vars

/-! ### Values for parameters -/

/-- `reflect.Zero` of the types that can be nil: a nil pointer or interface
(only ever an argument), an empty byte slice, and for `reflect.Value` the
zero value. -/
def zeroOf : GoType → Option Val
  | .dataPtr | .location | .empty | .error => some .nilIface
  | .bytes => some (.bytes [])
  | .reflectValue => some .invalid
  | _ => none

/-- `validateType`: the zero value becomes the nil of a nillable type; any
value fits `interface{}`, `reflect.Value` and the chain's operand (no type);
otherwise the types must match. -/
def validateType (v : Val) : Option GoType → Except ExecError Val
  | none => .ok v
  | some t =>
    match v with
    | .invalid => match zeroOf t with
      | some z => .ok z
      | none => .error (.invalidValue t)
    | _ => if t = .empty ∨ t = .reflectValue ∨ v.type = some t then .ok v else .error (.wrongType t (v.type.getD .empty))

/-- A value of an integer type from its number. -/
def Val.ofIntKind (t : GoType) (n : Int) : Val :=
  match t with
  | .int64 => .int64 n
  | .month => .month n
  | .weekday => .weekday n
  | .duration => .duration n
  | _ => .int n

/-- `isHexInt` and `isRuneInt` of `idealConstant`. -/
def isHexInt (s : GoString) : Bool :=
  2 < s.length && s.head? = some 0x30 && (s.get? 1 = some 0x78 || s.get? 1 = some 0x58) && !(s.any fun c => c = 0x70 || c = 0x50)

def isRuneInt (s : GoString) : Bool := s.head? = some 0x27

/-- `idealConstant`: a number where no type is asked for. A complex constant
is complex; one written as a float is a float; an integer is an `int`, and a
`uint64` past it overflows; a float constant written as an integer that no
integer type holds is the zero value. -/
def idealConstant (n : Number) : Except ExecError Val :=
  match n.complex, n.float, n.int with
  | some (re, im), _, _ => .ok (.complex re im)
  | none, some f, i =>
    if !isHexInt n.text && !isRuneInt n.text && n.text.any (fun c => c ∈ lit ".eEpP") then .ok (.float f)
    else match i with
      | some i => .ok (.int i)
      | none => if n.uint.isSome then .error (.overflowsInt n.text) else .ok .invalid
  | none, none, some i => .ok (.int i)
  | none, none, none => if n.uint.isSome then .error (.overflowsInt n.text) else .ok .invalid

/-- `evalEmptyInterface` of a constant. -/
def constantValue (a : Arg) : Except ExecError Val :=
  match a with
  | .bool b => .ok (.bool b)
  | .number n => idealConstant n
  | .string _ s => .ok (.string s)
  | a => .error (.cantHandle a.text .empty)

/-- `evalArg` of a constant for a parameter of type `t`, by its kind: the
constant must be of that kind (`evalBool`, `evalInteger` and the others). -/
def evalConstant (t : GoType) (a : Arg) : Except ExecError Val :=
  let expected (kind : String) := Except.error (ExecError.expected (lit kind) a.text)
  match t, a with
  | .string, .string _ s => .ok (.string s)
  | .string, _ => expected "string"
  | .bool, .bool b => .ok (.bool b)
  | .bool, _ => expected "bool"
  | .int, _ | .int64, _ | .month, _ | .weekday, _ | .duration, _ =>
    match a with
    | .number ⟨_, some i, _, _, _⟩ => .ok (Val.ofIntKind t i)
    | _ => expected "integer"
  | .uint8, .number ⟨_, _, some u, _, _⟩ => .ok (.uint8 (u % 256))
  | .uint8, _ => expected "unsigned integer"
  | .float64, .number ⟨_, _, _, some f, _⟩ => .ok (.float f)
  | .float64, _ => expected "float"
  | .complex128, .number ⟨_, _, _, _, some (re, im)⟩ => .ok (.complex re im)
  | .complex128, _ => expected "complex"
  | .empty, _ | .reflectValue, _ => constantValue a
  | t, a => .error (.cantHandle a.text t)

/-! ### Fields and calls -/

/-- The unexported fields of the structs behind `time.Time` and `*time.Location`. -/
def timeFields : List GoString := [lit "wall", lit "ext", lit "loc"]

def locationFields : List GoString :=
  [lit "name", lit "zone", lit "tx", lit "extend", lit "cacheStart", lit "cacheEnd", lit "cacheZone"]

/-- What `evalField` finds under a name before any argument is evaluated: a
method, or a value. -/
inductive Member where
  | method (sig : Sig)
  | value (v : Val)

/-- `evalField` up to the call: the zero value has no fields and gives
itself; a method comes first; then an exported field of a struct, which takes
no arguments. -/
def lookupField (d : WebhookTemplateData) (receiver : Val) (name : GoString) (hasArgs : Bool) :
    Except ExecError Member :=
  match receiver with
  | .invalid | .nilIface => .ok (.value .invalid)
  | _ =>
    match methodSig receiver name with
    | some sig => .ok (.method sig)
    | none =>
      match receiver with
      | .data =>
        match d.field name with
        | some v => if hasArgs then .error (.hasArguments name) else .ok (.value v)
        | none => .error (.cantEvaluateField name .dataPtr)
      | .time _ _ =>
        .error (if name ∈ timeFields then .unexportedField name .time else .cantEvaluateField name .time)
      | .location _ =>
        .error (if name ∈ locationFields then .unexportedField name .location else .cantEvaluateField name .location)
      | v => .error (.cantEvaluateField name (v.type.getD .empty))

/-- A function value: one of `webhookFuncMap`, a builtin, or a method of a receiver. -/
inductive Callee where
  | fn (f : Fn)
  | builtin (b : Builtin)
  | method (recv : Val) (name : GoString) (sig : Sig)

def Callee.sig : Callee → Sig
  | .fn f => { params := f.params, results := f.results }
  | .builtin b => b.sig
  | .method _ _ s => s

/-- `findFunction`: `webhookFuncMap` first, then the builtins. -/
def findFunction (name : GoString) : Option Callee :=
  match Fn.ofName name with
  | some f => some (.fn f)
  | none => (Builtin.ofName name).map .builtin

/-- `goodFunc`: one result, or a second one of type `error`. -/
def goodFunc (name : GoString) (sig : Sig) : Except ExecError Unit :=
  match sig.results with
  | [_] | [_, .error] => .ok ()
  | [_, t] => .error (.secondResultNotError name t)
  | rs => .error (.tooManyResults name rs.length)

/-- The parameter the piped final value is checked against: the last one,
or of a variadic function the fixed one it falls on or the element type. -/
def finalType (sig : Sig) (numIn : Nat) : GoType :=
  match sig.variadic with
  | some elem => if numIn - 1 < sig.params.length then sig.params.getD (numIn - 1) .empty else elem
  | none => sig.params.getLastD .empty

/-- Whether the callee is the builtin `or` (`some true`) or `and` (`some false`). -/
def Callee.andOr : Callee → Option Bool
  | .builtin .and => some false
  | .builtin .or => some true
  | _ => none

/-- The call itself, on the evaluated arguments: `call` is given the text of
its first argument, or the piped value's `String()`. -/
def invoke (lib : Lib) (d : WebhookTemplateData) (c : Callee) (calleeName : GoString) (args : List Val) :
    Except CallError Val :=
  match c with
  | .builtin .call => callBuiltin calleeName (args.headD .invalid)
  | .fn f => f.apply lib d args
  | .builtin b => b.apply lib d args
  | .method recv n _ => callMethod lib recv n args

/-- What evaluation reads: the runtime, the data and the dot. -/
structure Scope where
  lib : Lib
  data : WebhookTemplateData
  dot : Val

/-- `evalCall`, given how to evaluate the command's `numArgs` arguments: the
number of arguments and the results are checked first; `and` and `or` then
evaluate their arguments one by one and stop at the first that decides;
otherwise every argument is evaluated for its parameter, the piped final
value checked against its own, and the function called, its error or panic
reported as `error calling`. -/
def evalCallWith (sc : Scope) (name : GoString) (c : Callee) (numArgs : Nat) (firstText : GoString)
    (final : Option Val) (vars : Vars) (evalArgs : List GoType → Option GoType → Vars → Except ExecError (List Val × Vars))
    (evalAndOr : Vars → Except ExecError (Val × Bool × Vars)) : Except ExecError (Val × Vars) := do
  let sig := c.sig
  let numIn := numArgs + (if final.isSome then 1 else 0)
  if sig.variadic.isSome then
    if numIn < sig.params.length then throw (.wrongNumberOfArgsAtLeast name sig.params.length numArgs)
  else if numIn ≠ sig.params.length then throw (.wrongNumberOfArgs name sig.params.length numIn)
  goodFunc name sig
  if c.andOr.isSome then
    let (v, stopped, vars) ← evalAndOr vars
    return (if stopped then v else final.getD v, vars)
  let (argVals, vars) ← evalArgs sig.params sig.variadic vars
  let finalVals ← match final with
    | none => pure []
    | some f => (validateType f (some (finalType sig numIn))).map ([·])
  let calleeName := if numArgs = 0 then (final.getD .invalid).reflectString else firstText
  match invoke sc.lib sc.data c calleeName (argVals ++ finalVals) with
  | .ok v => return (v, vars)
  | .error (.failed msg) => throw (.errorCalling name msg)
  | .error (.unsupported w) => throw (.unsupported w)

/-- A call with no arguments, as a field that is a method or a function
named as an argument is made. -/
def callNoArgs (sc : Scope) (name : GoString) (c : Callee) : Except ExecError Val :=
  (evalCallWith sc name c 0 [] none [] (fun _ _ vars => .ok ([], vars)) (fun vars => .ok (.invalid, false, vars))).map
    (·.1)

/-- `evalFieldChain` without arguments: each field read from the previous
receiver, a method called with none. -/
def fieldChain (sc : Scope) (receiver : Val) : List GoString → Except ExecError Val
  | [] => .ok receiver
  | name :: rest =>
    (lookupField sc.data receiver name false).bind fun
      | .value v => fieldChain sc v rest
      | .method sig => (callNoArgs sc name (.method receiver name sig)).bind fun v => fieldChain sc v rest

/-- `evalFieldChain` with the command's arguments, which only the last field
receives. -/
def chainWith (sc : Scope) (receiver : Val) (idents : List GoString) (numArgs : Nat) (firstText : GoString)
    (final : Option Val) (vars : Vars) (evalArgs : List GoType → Option GoType → Vars → Except ExecError (List Val × Vars))
    (evalAndOr : Vars → Except ExecError (Val × Bool × Vars)) : Except ExecError (Val × Vars) :=
  match idents.getLast? with
  | none => .ok (receiver, vars)
  | some last =>
    (fieldChain sc receiver idents.dropLast).bind fun r =>
      (lookupField sc.data r last (0 < numArgs ∨ final.isSome)).bind fun
        | .value v => .ok (v, vars)
        | .method sig => evalCallWith sc last (.method r last sig) numArgs firstText final vars evalArgs evalAndOr

/-- `notAFunction`: a value given arguments or a piped value. -/
def notAFunction (first : Arg) (numArgs : Nat) (final : Option Val) : Except ExecError Unit :=
  if 0 < numArgs ∨ final.isSome then .error (.notAFunction first.text) else .ok ()

/-! ### Evaluation -/

mutual
/-- `evalArg`: an argument for a parameter of type `typ`; no type is given
for the operand of a chain. -/
def evalArg (sc : Scope) (typ : Option GoType) : Arg → Vars → Except ExecError (Val × Vars)
  | .dot, vars => (validateType sc.dot typ).map (·, vars)
  | .nil, vars =>
    match typ with
    | some t => match zeroOf t with
      | some z => .ok (z, vars)
      | none => .error (.cannotAssignNil t)
    | none => .ok (.invalid, vars)
  | .field ident, vars => (fieldChain sc sc.dot ident).bind fun v => (validateType v typ).map (·, vars)
  | .variable ident, vars =>
    (vars.value (ident.headD [])).bind fun v =>
      (fieldChain sc v ident.tail).bind fun v => (validateType v typ).map (·, vars)
  | .pipe isAssign decl cmds, vars =>
    (evalCmds sc cmds none vars).bind fun (v, vars) =>
      (declare isAssign decl (v.getD .invalid) vars).bind fun vars =>
        (validateType (v.getD .invalid) typ).map (·, vars)
  | .identifier name, vars =>
    match findFunction name with
    | none => .error (.unsupported (lit "an undefined function"))
    | some c => (callNoArgs sc name c).bind fun v => (validateType v typ).map (·, vars)
  | .chain node fields, vars =>
    match node with
    | .nil => .error (.nilIndirection (Arg.chain node fields).text)
    | _ =>
      (evalArg sc none node vars).bind fun (r, vars) =>
        (fieldChain sc r fields).bind fun v => (validateType v typ).map (·, vars)
  | a, vars =>
    match typ with
    | some t => (evalConstant t a).map (·, vars)
    | none => (constantValue a).map (·, vars)

/-- The arguments of a call, each for its parameter: the fixed ones in
order, then the element type of the variadic one. -/
def evalArgList (sc : Scope) (types : List GoType) (variadic : Option GoType) :
    List Arg → Vars → Except ExecError (List Val × Vars)
  | [], vars => .ok ([], vars)
  | a :: as, vars =>
    (evalArg sc (types.head?.orElse fun _ => variadic) a vars).bind fun (v, vars) =>
      (evalArgList sc types.tail variadic as vars).map fun (vs, vars) => (v :: vs, vars)

/-- The arguments of `and` (`isOr` false) or `or`, up to the first whose truth
decides: the value, whether it decided, and the variables. -/
def evalAndOr (sc : Scope) (isOr : Bool) (last : Val) : List Arg → Vars → Except ExecError (Val × Bool × Vars)
  | [], vars => .ok (last, false, vars)
  | a :: as, vars =>
    (evalArg sc (some .reflectValue) a vars).bind fun (v, vars) =>
      if v.truth = isOr then .ok (v, true, vars) else evalAndOr sc isOr v as vars

/-- `evalCommand`, with the value piped in from the previous command. -/
def evalCommand (sc : Scope) : List Arg → Option Val → Vars → Except ExecError (Val × Vars)
  | [], _, _ => .error (.unsupported (lit "an empty command"))
  | .field ident :: args, final, vars =>
    chainWith sc sc.dot ident args.length ((args.head?.map Arg.text).getD []) final vars
      (fun types variadic vars => evalArgList sc types variadic args vars)
      (fun vars => evalAndOr sc false .invalid args vars)
  | .chain node fields :: args, final, vars =>
    match node with
    | .nil => .error (.nilIndirection (Arg.chain node fields).text)
    | _ =>
      (evalArg sc none node vars).bind fun (r, vars) =>
        chainWith sc r fields args.length ((args.head?.map Arg.text).getD []) final vars
          (fun types variadic vars => evalArgList sc types variadic args vars)
          (fun vars => evalAndOr sc false .invalid args vars)
  | .identifier name :: args, final, vars =>
    match findFunction name with
    | none => .error (.unsupported (lit "an undefined function"))
    | some c =>
      evalCallWith sc name c args.length ((args.head?.map Arg.text).getD []) final vars
        (fun types variadic vars => evalArgList sc types variadic args vars)
        (fun vars => evalAndOr sc (c.andOr.getD false) .invalid args vars)
  | .pipe isAssign decl cmds :: args, final, vars =>
    (notAFunction (.pipe isAssign decl cmds) args.length final).bind fun _ =>
      (evalCmds sc cmds none vars).bind fun (v, vars) =>
        (declare isAssign decl (v.getD .invalid) vars).map (v.getD .invalid, ·)
  | .variable ident :: args, final, vars =>
    (vars.value (ident.headD [])).bind fun v =>
      if ident.tail = [] then (notAFunction (.variable ident) args.length final).map fun _ => (v, vars)
      else
        chainWith sc v ident.tail args.length ((args.head?.map Arg.text).getD []) final vars
          (fun types variadic vars => evalArgList sc types variadic args vars)
          (fun vars => evalAndOr sc false .invalid args vars)
  | first :: args, final, vars =>
    (notAFunction first args.length final).bind fun _ =>
      match first with
      | .dot => .ok (sc.dot, vars)
      | .nil => .error .nilIsNotACommand
      | a => (constantValue a).map (·, vars)

/-- The commands of a pipeline, each receiving the previous one's value. -/
def evalCmds (sc : Scope) : List (List Arg) → Option Val → Vars → Except ExecError (Option Val × Vars)
  | [], v, vars => .ok (v, vars)
  | cmd :: cmds, v, vars => (evalCommand sc cmd v vars).bind fun (v, vars) => evalCmds sc cmds (some v) vars
end

/-- `evalPipeline`: the commands, then the declarations. -/
def evalPipeline (sc : Scope) (p : Pipe) (vars : Vars) : Except ExecError (Val × Vars) :=
  (evalCmds sc p.cmds none vars).bind fun (v, vars) =>
    (declare p.isAssign p.decl (v.getD .invalid) vars).map (v.getD .invalid, ·)

/-! ### The walk -/

/-- How a walk ends: normally, or on its way out of the enclosing `range`
after a `{{break}}` or `{{continue}}`. -/
inductive Flow where
  | normal
  | breakLoop
  | continueLoop
  deriving DecidableEq, Repr

/-- What a walk reads: the runtime, the data, the trees, and how a named
tree is run, which is `none` once the depth is spent. -/
structure Env where
  lib : Lib
  data : WebhookTemplateData
  trees : TreeSet
  call : Option (Val → List Node → Except ExecError GoString)

def Env.scope (env : Env) (dot : Val) : Scope := ⟨env.lib, env.data, dot⟩

/-- The pairs of index and element a `range` visits: the bytes of a slice,
and from Go 1.24 the integers below an integer, which takes one variable. The
zero value visits nothing; anything else cannot be ranged over. -/
def rangeItems (lib : Lib) (p : Pipe) (v : Val) : Except ExecError (List (Val × Val)) :=
  match v with
  | .bytes b => .ok ((List.range b.length).zip b |>.map fun (i, c) => (.int i, .uint8 c.toNat))
  | .invalid | .nilIface => .ok []
  | _ =>
    if lib.rangeOverInt ∧ (v.kind = .int ∨ v.kind = .uint) then
      if 1 < p.decl.length then .error (.rangeIntTwoVariables v)
      else
        let mk (i : Nat) : Val := match v with
          | .uint8 _ => .uint8 i
          | .int64 _ => .int64 i
          | .month _ => .month i
          | .weekday _ => .weekday i
          | .duration _ => .duration i
          | _ => .int i
        .ok ((List.range v.intValue.toNat).map fun i => (mk i, mk i))
    else .error (.rangeCantIterate v)

/-- The variables of one iteration: with `=` the first is assigned the index
(or with one variable the element) and the second the element; declared, the
newest is set to the element and the one below it to the index. -/
def iterationVars (p : Pipe) (index elem : Val) (vars : Vars) : Except ExecError Vars := do
  let vars ← match p.decl with
    | [] => pure vars
    | first :: rest => if p.isAssign then vars.set first (if rest = [] then elem else index) else pure (vars.setTop 0 elem)
  match p.decl with
  | _ :: second :: _ => if p.isAssign then vars.set second elem else pure (vars.setTop 1 index)
  | _ => pure vars

/-- The iterations of a `range` over its items: each body is walked with the
element as dot and its variables popped after it; a `{{break}}` ends the loop
and a `{{continue}}` ends the iteration. -/
def rangeLoop (p : Pipe) (body : Val → Vars → Except ExecError (GoString × Flow × Vars)) (mark : Nat) :
    List (Val × Val) → Vars → Except ExecError (GoString × Vars)
  | [], vars => .ok ([], vars)
  | (i, e) :: rest, vars => do
    let vars ← iterationVars p i e vars
    let (out, flow, vars) ← body e vars
    let vars := vars.pop mark
    if flow = .breakLoop then return (out, vars)
    let (out', vars) ← rangeLoop p body mark rest vars
    return (out ++ out', vars)

mutual
/-- `walk` of one node. -/
def walk (env : Env) (dot : Val) : Node → Vars → Except ExecError (GoString × Flow × Vars)
  | .text s, vars => .ok (s, .normal, vars)
  | .action p, vars =>
    (evalPipeline (env.scope dot) p vars).bind fun (v, vars) =>
      if p.decl = [] then
        match actionText env.lib env.data v with
        | some s => .ok (s, .normal, vars)
        | none => .error (.unsupported (lit "printing a value"))
      else .ok ([], .normal, vars)
  | .ifNode p list elseList, vars =>
    (evalPipeline (env.scope dot) p vars).bind fun (v, vars') =>
      (if v.truth then walkList env dot list vars' else walkList env dot elseList vars').map
        fun (o, f, vars') => (o, f, vars'.pop vars.length)
  | .withNode p list elseList, vars =>
    (evalPipeline (env.scope dot) p vars).bind fun (v, vars') =>
      (if v.truth then walkList env v list vars' else walkList env dot elseList vars').map
        fun (o, f, vars') => (o, f, vars'.pop vars.length)
  | .rangeNode p list elseList, vars =>
    (evalPipeline (env.scope dot) p vars).bind fun (v, vars') =>
      (rangeItems env.lib p v).bind fun items =>
        if items = [] then
          (walkList env dot elseList vars').map fun (o, f, vars') => (o, f, vars'.pop vars.length)
        else
          (rangeLoop p (fun e vs => walkList env e list vs) vars'.length items vars').map
            fun (o, vars') => (o, .normal, vars'.pop vars.length)
  | .template name pipe, vars =>
    match env.trees.lookup name, env.call with
    | none, _ => .error (.templateNotDefined name)
    | some _, none => .error .maxDepth
    | some root, some call =>
      let evaluated : Except ExecError (Val × Vars) := match pipe with
        | none => .ok (.invalid, vars)
        | some p => evalPipeline (env.scope dot) p vars
      evaluated.bind fun (dot', vars) => (call dot' root).map fun out => (out, .normal, vars)
  | .breakNode, vars => .ok ([], .breakLoop, vars)
  | .continueNode, vars => .ok ([], .continueLoop, vars)

/-- `walk` of a list node: the outputs in order, up to the first error or
the first `{{break}}` or `{{continue}}`. -/
def walkList (env : Env) (dot : Val) : List Node → Vars → Except ExecError (GoString × Flow × Vars)
  | [], vars => .ok ([], .normal, vars)
  | n :: ns, vars =>
    (walk env dot n vars).bind fun (o, f, vars) =>
      if f = .normal then (walkList env dot ns vars).map fun (o', f, vars) => (o ++ o', f, vars)
      else .ok (o, f, vars)
end

/-- A tree run with `$` the dot, able to make `k` more nested template calls. -/
def runTree (lib : Lib) (d : WebhookTemplateData) (trees : TreeSet) : Nat → Val → List Node → Except ExecError GoString
  | 0, dot, root => (walkList ⟨lib, d, trees, none⟩ dot root [(lit "$", dot)]).map (·.1)
  | k + 1, dot, root => (walkList ⟨lib, d, trees, some (runTree lib d trees k)⟩ dot root [(lit "$", dot)]).map (·.1)

/-- `maxExecDepth`. -/
def maxExecDepth : Nat := 100000

/-- `Execute`: the named tree on the data. -/
def execute (lib : Lib) (trees : TreeSet) (name : GoString) (data : WebhookTemplateData) : Except ExecError GoString :=
  match trees.lookup name with
  | none => .error (.incomplete name)
  | some root => runTree lib data trees maxExecDepth .data root

/-! ### The repository's entry points -/

/-- The errors of `executeTemplate`: `"template parse error: %w"` and
`"template execution error: %w"`. -/
inductive TemplateError where
  | parse (e : ParseError)
  | exec (e : ExecError)
  deriving DecidableEq, Repr

/-- `executeTemplate`: the template `webhook` parsed with `webhookFuncMap`
and executed on the data. -/
def executeTemplate (lib : Lib) (templateStr : GoString) (data : WebhookTemplateData) :
    Except TemplateError GoString :=
  match parse lib (lit "webhook") templateStr with
  | .error e => .error (.parse e)
  | .ok trees =>
    match execute lib trees (lit "webhook") data with
    | .error e => .error (.exec e)
    | .ok out => .ok out

/-- The errors of `executeTemplateForBody`: a template's, `"template resulted in
invalid JSON: %w"`, and `"unsupported body type: %T"`. Marshalling a decoded
body cannot fail. -/
inductive BodyError where
  | template (e : TemplateError)
  | invalidJSON (e : Json.DecodeError)
  | unsupportedBodyType (body : Json.Value)
  deriving DecidableEq, Repr

/-- `executeTemplateForBody`. -/
def executeTemplateForBody (lib : Lib) (body : Json.Value) (data : WebhookTemplateData) :
    Except BodyError GoString :=
  match body with
  | .string v =>
    match executeTemplate lib v data with
    | .error e => .error (.template e)
    | .ok result => .ok result
  | .object _ | .array _ =>
    match executeTemplate lib (Json.marshal body) data with
    | .error e => .error (.template e)
    | .ok result =>
      match Json.unmarshal result with
      | .error e => .error (.invalidJSON e)
      | .ok _ => .ok result
  | v => .error (.unsupportedBodyType v)

/-- The leaf of the monitoring example of the documentation. -/
def errorOrEmpty : GoString := lit "\x7b\x7b.Error | default \"\"\x7d\x7d"

/-- A run of `backup` whose job name holds quotes. -/
def quotedJobContext : Context := { backupContext with jobName := lit "say \"hi\"" }

/-- Rendering the marshalled body is not rendering each leaf. The leaf
`errorOrEmpty` renders on its own, but `json.Marshal` writes its quotes as
`\"`, and the template of the JSON text stops at the backslash. The leaf
`.JobName` renders on its own, but its value is put into the JSON text without
escaping, and the quotes of `say "hi"` end the string early. -/
theorem executeTemplateForBody_not_per_leaf :
    executeTemplate asciiLib errorOrEmpty (buildTemplateData asciiLib backupContext) = .ok [] ∧
    executeTemplateForBody asciiLib (.object [(lit "error", .string errorOrEmpty)])
        (buildTemplateData asciiLib backupContext) =
      .error (.template (.parse (.unexpected (.tok .itemChar (lit "\\")) (lit "operand")))) ∧
    executeTemplate asciiLib (lit "\x7b\x7b.JobName\x7d\x7d") (buildTemplateData asciiLib quotedJobContext) =
      .ok (lit "say \"hi\"") ∧
    executeTemplateForBody asciiLib (.object [(lit "job", .string (lit "\x7b\x7b.JobName\x7d\x7d"))])
        (buildTemplateData asciiLib quotedJobContext) =
      .error (.invalidJSON (.invalidCharacter 0x68 (lit "after object key:value pair"))) := by
  decide

end Ofelia.Template
