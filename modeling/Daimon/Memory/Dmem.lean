import Mathlib.Data.List.Basic

/-!
# Recall from the memory sidecar

`pre_turn_recall` of `daimon-memory/src/dmem_http.rs` with its types from `service.rs`. The sidecar's answers to
`/recall` come from a parameter with a state of its own. The ranks that the loop carries and does not read are left out.
-/

namespace Daimon.Memory

/-- The namespace of an entry is read by `retrieve` only. -/
structure DmEntry where
  uri : String
  kind : String
  title : String
  body : String
  deriving DecidableEq, Repr

/-- `rerank` is sent nowhere. -/
structure RecallBudget where
  maxTokens : Nat
  topK : Nat
  rerank : Bool
  deriving DecidableEq, Repr

structure PreTurnContext where
  block : String
  degraded : Bool
  hits : Nat
  deriving DecidableEq, Repr

def PreTurnContext.degradedContext : PreTurnContext := ⟨"", true, 0⟩

def isTypedKind (kind : String) : Bool :=
  kind ∈ ["decision", "incident_summary", "incident", "agent_lesson", "lesson"]

def estTokens (s : String) : Nat := max (s.length / 4) 1

namespace DmEntry

def line (e : DmEntry) : String := "- (" ++ e.kind ++ ") " ++ e.title ++ ": " ++ e.body

def cost (e : DmEntry) : Nat := estTokens e.line

end DmEntry

structure Packing where
  seen : List String
  packed : List String
  budgetLeft : Nat
  hits : Nat
  deriving DecidableEq, Repr

/-- A subtraction of `usize`; none where it would fall below zero. -/
def checkedSub (a b : Nat) : Option Nat := if b ≤ a then some (a - b) else none

/-- The loop over the merged entries. -/
def pack : List DmEntry → Packing → Option Packing
  | [], p => some p
  | e :: rest, p =>
      if e.uri ∈ p.seen then pack rest p
      else
        let p := { p with seen := e.uri :: p.seen }
        if p.budgetLeft < e.cost then some p
        else do
          let budgetLeft ← checkedSub p.budgetLeft e.cost
          pack rest { p with budgetLeft, packed := p.packed ++ [e.line], hits := p.hits + 1 }

section Recall
variable {σ : Type} (recallEntries : String → Nat → σ → Except String (List DmEntry) × σ)

/-- Twice a `usize`, as a release build computes it. -/
def double (limit : Nat) : Nat := limit * 2 % 0x10000000000000000

/-- The context, none where the budget would fall below zero, and the state of the sidecar. -/
def preTurnRecall (userMessage : String) (budget : RecallBudget) (s : σ) : Option PreTurnContext × σ :=
  let limit := max budget.topK 1
  match recallEntries userMessage limit s with
  | (.error _, s) => (some .degradedContext, s)
  | (.ok all, s) =>
      match recallEntries userMessage (double limit) s with
      | (.error _, s) => (some .degradedContext, s)
      | (.ok typedPool, s) =>
          let typed := typedPool.filter fun e => isTypedKind e.kind
          let packing := pack (typed ++ all) ⟨[], [], budget.maxTokens, 0⟩
          (packing.map fun p => ⟨"\n".intercalate p.packed, false, p.hits⟩, s)

end Recall

end Daimon.Memory
