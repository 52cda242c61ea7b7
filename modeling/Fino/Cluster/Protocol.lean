import Fino.Workflow.Types

/-!
# Messages of the cluster

The `ClusterMessage` of `js/internal/cluster/protocol.ts` as it is after `decode`, so sequence
numbers are natural numbers. Values of the type `unknown` are of an arbitrary type.
-/

namespace Fino.Cluster

open Workflow (Time)

/-! ## Messages -/

structure NodeLoad where
  cpu : ℚ
  memory : ℚ
deriving DecidableEq

structure PeerInfo where
  nodeId : String
  load : NodeLoad
deriving DecidableEq

structure SerializedSpawnConfig (V : Type) where
  entry : String
  root : String
  rules : List V
  bootstrapData : Option V
deriving DecidableEq

/-- `REALM_EXIT`. -/
structure RealmExitMessage where
  realmId : String
  lastPortSeq : ℕ
  error : Option String
deriving DecidableEq

/-- `PORT_MSG`. -/
structure PortMessage where
  fromPort : String
  toPort : String
  payload : List (List UInt8)
  seq : ℕ
  payloadFormat : Option ℕ
deriving DecidableEq

inductive ClusterMessage (V : Type)
  | hello (nodeId : String) (load : NodeLoad)
  | welcome (nodeId : String) (peers : List PeerInfo)
  | peerUp (peer : PeerInfo)
  | peerDown (nodeId : String)
  | heartbeat (ts : Time)
  | spawn (spawnReqId parentPortId : String) (config : SerializedSpawnConfig V)
  | spawnAck (spawnReqId childPortId : String) (ok : Bool) (error : Option String)
  | realmExit (exit : RealmExitMessage)
  | terminate (realmId : String)
  | portMsg (msg : PortMessage)
deriving DecidableEq

/-- `if (id)`: the identifier, unless it is `null`, `undefined` or empty. -/
def truthy (id : Option String) : Option String := id.filter (· ≠ "")

lemma truthy_eq_some {id : Option String} {x : String} :
    truthy id = some x ↔ id = some x ∧ x ≠ "" := by
  simp [truthy, Option.filter_eq_some_iff]

/-- `nodeIdFromId`: what stands before the first slash. -/
def nodeIdFromId (id : String) : String := String.ofList (id.toList.takeWhile (· ≠ '/'))

lemma append_cons_inj_right {α : Type*} {c : α} {l₁ l₂ m₁ m₂ : List α} (h₁ : c ∉ m₁) (h₂ : c ∉ m₂)
    (h : l₁ ++ c :: m₁ = l₂ ++ c :: m₂) : l₁ = l₂ ∧ m₁ = m₂ := by
  rcases List.append_eq_append_iff.mp h with ⟨e, hl, hm⟩ | ⟨e, hl, hm⟩
  · cases e with
    | nil => simp_all
    | cons b e =>
      simp only [List.cons_append, List.cons.injEq] at hm
      exact absurd (by rw [hm.2]; simp) h₁
  · cases e with
    | nil => simp_all
    | cons b e =>
      simp only [List.cons_append, List.cons.injEq] at hm
      exact absurd (by rw [hm.2]; simp) h₂

/-- An identifier determines the name of its node and its number. -/
lemma mint_inj {n n' : String} {k k' : ℕ} {c : Char} (hc : c.isDigit = false)
    (h : n.toList ++ c :: k.repr.toList = n'.toList ++ c :: k'.repr.toList) :
    n = n' ∧ k = k' := by
  have hdigits : ∀ k : ℕ, c ∉ k.repr.toList := by
    intro k hmem
    rw [Nat.toList_repr] at hmem
    rw [Nat.isDigit_of_mem_toDigits (by decide) le_rfl hmem] at hc
    exact Bool.noConfusion hc
  obtain ⟨hn, hk⟩ := append_cons_inj_right (hdigits k) (hdigits k') h
  rw [Nat.toList_repr, Nat.toList_repr] at hk
  refine ⟨String.toList_inj.mp hn, ?_⟩
  rw [← Nat.ofDigitChars_ten_toDigits (n := k), hk, Nat.ofDigitChars_ten_toDigits]

end Fino.Cluster
