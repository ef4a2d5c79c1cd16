/-
# Traces add up

A trace accounts for the depth it comes with: the weights of its links, and 1 for a recursive call
at its end, add up to the depth (`trace_adds_up`).

What is carried through measurements is local. The depth of an outcome is the value of its first
link, and the dominant part of each link is worth what the trace below it is worth
(`Outcome.Certified`). A recursive call counts for the callee of a call only, so it stands below a
link that goes on with its callee. That the weights add up follows by induction on the trace
(`Trace.total_eq_value`).
-/
import CallDepth.Proofs.Run
import Mathlib.Algebra.GroupWithZero.Nat

namespace CallDepth

namespace Parts

/-- The dominant part is the deepest. -/
theorem get_dominant (parts : Parts) : parts.get parts.dominant = parts.max := by
  unfold dominant max
  split
  · rename_i callee
    simp only [Bool.and_eq_true, decide_eq_true_eq] at callee
    exact (Nat.max_eq_right (Nat.max_le.2 callee)).symm
  · rename_i other
    simp only [Bool.and_eq_true, decide_eq_true_eq] at other
    split
    · show parts.expr = Max.max (Max.max parts.arg parts.expr) parts.callee
      omega
    · show parts.arg = Max.max (Max.max parts.arg parts.expr) parts.callee
      omega

end Parts

namespace Trace

def links : Trace → List Link
  | empty => []
  | call link below => link :: below.links
  | recursion .. => []

def endsInRecursion : Trace → Bool
  | empty => false
  | call _ below => below.endsInRecursion
  | recursion .. => true

/-- The trace is nothing but a recursive call. -/
def IsRecursion (trace : Trace) : Prop :=
  ∃ function owner, trace = recursion function owner

/-- What all links of a trace add up to; a recursive call at the end counts 1. -/
def total (trace : Trace) : Nat :=
  (trace.links.map (·.weight)).sum + if trace.endsInRecursion then 1 else 0

/-- What the first link of a trace says its depth is. -/
def value : Trace → Nat
  | empty => 0
  | call link _ => link.weight + link.parts.max
  | recursion .. => 1

/-- Something holds of every link and the trace below it. -/
def EveryLink (holds : Link → Trace → Prop) : Trace → Prop
  | empty => True
  | call link below => holds link below ∧ below.EveryLink holds
  | recursion .. => True

end Trace

/-- A link accounts for the trace below it. -/
structure Link.Certifies (link : Link) (below : Trace) : Prop where
  dominant : link.via = link.parts.dominant
  largest : link.parts.get link.via = link.parts.max
  continues : link.parts.get link.via = below.value
  /-- A recursive call is what the call itself leads to. -/
  recursive : below.IsRecursion → link.via = .callee ∧ link.callee = some userDefined

/-- The links of a trace add up to what its first link says. -/
theorem Trace.total_eq_value {trace : Trace} (links : trace.EveryLink Link.Certifies) :
    trace.total = trace.value := by
  induction trace with
  | empty => rfl
  | recursion function owner => rfl
  | call link below ih =>
      obtain ⟨certifies, rest⟩ := links
      calc (Trace.call link below).total
        _ = link.weight + below.total := Nat.add_assoc ..
        _ = link.weight + below.value := by rw [ih rest]
        _ = link.weight + link.parts.max := by rw [← certifies.continues, certifies.largest]

/-- The trace of an outcome accounts for its depth. -/
structure Outcome.Certified (outcome : Outcome) : Prop where
  depth : outcome.depth = outcome.trace.value
  links : outcome.trace.EveryLink Link.Certifies

/-- The outcome is that of a body: a recursive call stands below a link only. -/
structure Outcome.BodyCertified (outcome : Outcome) : Prop extends outcome.Certified where
  called : ¬ outcome.trace.IsRecursion

theorem Outcome.floor_bodyCertified : floor.BodyCertified :=
  ⟨⟨rfl, trivial⟩, by rintro ⟨function, owner, impossible⟩; cases impossible⟩

namespace Analyzer

variable {analyzer : Analyzer}

theorem recursive_certified (traced : analyzer.options.trace = true) (id : FunctionId) :
    (analyzer.recursive id).Certified := by
  unfold recursive
  rw [if_pos traced]
  split <;> exact ⟨rfl, trivial⟩

section Call

variable (site : CallSite) {args expr : Outcome} {callee : Option Outcome}

theorem callRest_certified (argsCertified : args.Certified) (exprCertified : expr.Certified)
    (calleeCertified : (callee.getD .floor).Certified) :
    (analyzer.callRest site args expr callee).Certified := by
  unfold callRest
  cases (analyzer.callLink site args expr callee).via with
  | args => exact argsCertified
  | expr => exact exprCertified
  | callee => exact calleeCertified

/-- Arguments and callee expressions have no bare recursive call, and a call that leads nowhere has
no trace. -/
theorem callLink_of_recursion (argsCalled : ¬ args.trace.IsRecursion)
    (exprCalled : ¬ expr.trace.IsRecursion)
    (recursion : (analyzer.callRest site args expr callee).trace.IsRecursion) :
    (analyzer.callLink site args expr callee).via = .callee ∧
      (analyzer.callLink site args expr callee).callee = some userDefined := by
  unfold callRest at recursion
  cases via : (analyzer.callLink site args expr callee).via <;> rw [via] at recursion
  case args => exact absurd recursion argsCalled
  case expr => exact absurd recursion exprCalled
  case callee =>
      cases callee with
      | none => exact absurd recursion Outcome.floor_bodyCertified.called
      | some reached => exact ⟨rfl, rfl⟩

theorem callLink_certifies (argsCertified : args.BodyCertified)
    (exprCertified : expr.BodyCertified) (calleeCertified : (callee.getD .floor).Certified) :
    (analyzer.callLink site args expr callee).Certifies
      (analyzer.callRest site args expr callee).trace where
  dominant := rfl
  largest := Parts.get_dominant _
  continues := by
    rw [← callRest_depth]
    exact (callRest_certified site argsCertified.toCertified exprCertified.toCertified
      calleeCertified).depth
  recursive := callLink_of_recursion site argsCertified.called exprCertified.called

end Call

variable {caller : Definition} {outcomes : FunctionId → Outcome}

theorem measureCall_certified (traced : analyzer.options.trace = true) (site : CallSite)
    {args expr : Walk} {callee : Option Outcome} (argsCertified : args.outcome.BodyCertified)
    (exprCertified : expr.outcome.BodyCertified)
    (calleeCertified : (callee.getD .floor).Certified) :
    (analyzer.measureCall caller site args expr callee).outcome.BodyCertified := by
  rw [measureCall_outcome _ _ traced]
  refine ⟨⟨rfl, callLink_certifies site argsCertified exprCertified calleeCertified, ?_⟩, ?_⟩
  · exact (callRest_certified site argsCertified.toCertified exprCertified.toCertified
      calleeCertified).links
  · rintro ⟨function, owner, impossible⟩
    cases impossible

/-- Traces of nodes account for their depths if those of the callees do. -/
theorem measure_certified (traced : analyzer.options.trace = true)
    (certified : ∀ id, (outcomes id).Certified) (node : Node) :
    (analyzer.measure caller outcomes node).outcome.BodyCertified := by
  induction node using Node.children_induction with
  | site site operands callee =>
      have args := deepest_measure_holds Outcome.floor_bodyCertified operands
      have expr := deepest_measure_holds Outcome.floor_bodyCertified callee
      rw [measure_site]
      refine measureCall_certified traced site args expr ?_
      cases analyzer.unit.resolve? site caller.owner with
      | none => exact Outcome.floor_bodyCertified.toCertified
      | some id => exact certified id
  | plain node plain children =>
      rw [measure_of_plain _ _ _ plain]
      exact deepest_measure_holds Outcome.floor_bodyCertified children

theorem conclude_certified (traced : analyzer.options.trace = true)
    {memo : List (FunctionId × Outcome)}
    (earlier : ∀ id outcome, memo.lookup id = some outcome → outcome.BodyCertified)
    (id : FunctionId) : (analyzer.conclude memo id).outcome.BodyCertified := by
  have presumed : ∀ other, (analyzer.presumed memo other).Certified := by
    intro other
    cases known : memo.lookup other with
    | some outcome => exact presumed_of_found known ▸ (earlier other outcome known).toCertified
    | none => exact presumed_of_missing known ▸ recursive_certified traced other
  exact conclude_holds Outcome.floor_bodyCertified fun definition node _ _ =>
    measure_certified traced presumed node

/-- The trace of every remembered outcome accounts for its depth. -/
theorem History.certified (traced : analyzer.options.trace = true)
    {memo : List (FunctionId × Outcome)} {log : List CallEvent}
    (history : analyzer.History memo log) {id : FunctionId} {outcome : Outcome}
    (found : memo.lookup id = some outcome) : outcome.BodyCertified :=
  history.remembered_induction (motive := fun _ outcome => outcome.BodyCertified)
    (fun _ id _ earlier _ => conclude_certified traced earlier id) found

/-- Traces add up. When traces are kept, every outcome that is remembered or given after any
measurements has depth 0 when its trace is empty, and otherwise the weights of its links as depth,
with 1 for a recursive call at the end. Each link accounts for the trace below it, and a recursive
call stands only below a link that goes on with its callee. -/
theorem trace_adds_up (analyzer : Analyzer) (traced : analyzer.options.trace = true)
    (ids : List FunctionId) (id : FunctionId) (outcome : Outcome)
    (given : (analyzer.after ids).outcome? id = some outcome ∨
      (analyzer.depth (analyzer.after ids) id).1 = outcome) :
    (outcome.trace = .empty → outcome.depth = 0) ∧
      (outcome.trace ≠ .empty → outcome.depth = (outcome.trace.links.map (·.weight)).sum +
        if outcome.trace.endsInRecursion then 1 else 0) ∧
      outcome.trace.EveryLink Link.Certifies ∧ ¬ outcome.trace.IsRecursion := by
  have certified : outcome.BodyCertified := by
    rcases given with remembered | returned
    · exact (after_settled ids).history.certified traced remembered
    · obtain ⟨settled, -, remembered⟩ := (after_settled ids).depth id
      exact returned ▸ settled.history.certified traced remembered
  refine ⟨fun none => ?_, fun _ => ?_, certified.links, certified.called⟩
  · rw [certified.depth, none]
    rfl
  · rw [certified.depth, ← Trace.total_eq_value certified.links]
    rfl

theorem parity_trace_adds_up :
    parity.options.trace = true ∧ (parity.after [0]).outcome? 0 = some parityEven ∧
      parityEven.trace ≠ .empty ∧
      parityEven.depth = (parityEven.trace.links.map (·.weight)).sum +
        (if parityEven.trace.endsInRecursion then 1 else 0) ∧
      parityEven.trace.EveryLink Link.Certifies ∧ ¬ parityEven.trace.IsRecursion := by
  have remembered : (parity.after [0]).outcome? 0 = some parityEven := by decide +kernel
  have nonempty : parityEven.trace ≠ .empty := by decide
  obtain ⟨-, adds, links, called⟩ :=
    trace_adds_up parity rfl [0] 0 parityEven (.inl remembered)
  exact ⟨rfl, remembered, nonempty, adds nonempty, links, called⟩

end Analyzer

end CallDepth
