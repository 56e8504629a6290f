import Mathlib.Order.Basic
import Plexo.Address
import Plexo.Neuron

/-!
# Protocol messages

The `capnp` structs of the multicast protocol, the order of ballots, and what
a receiver reads when a struct is decoded with the schema of another one.

Type names are UTF-8 bytes on the wire and `str` in the ganglion; encoding is
injective, so both are kept as the text itself.
-/

namespace Plexo

/-- A ballot of the protocol, ordered as the tuple
`(proposal_id, instance_id)`. -/
structure Ballot where
  proposalId : Nat
  instanceId : Nat
  deriving DecidableEq

namespace Ballot

instance : LE Ballot :=
  ⟨fun left right => left.proposalId < right.proposalId ∨
    left.proposalId = right.proposalId ∧ left.instanceId ≤ right.instanceId⟩

instance : LT Ballot :=
  ⟨fun left right => left.proposalId < right.proposalId ∨
    left.proposalId = right.proposalId ∧ left.instanceId < right.instanceId⟩

theorem le_def {left right : Ballot} :
    left ≤ right ↔ left.proposalId < right.proposalId ∨
      left.proposalId = right.proposalId ∧
        left.instanceId ≤ right.instanceId := Iff.rfl

theorem lt_def {left right : Ballot} :
    left < right ↔ left.proposalId < right.proposalId ∨
      left.proposalId = right.proposalId ∧
        left.instanceId < right.instanceId := Iff.rfl

instance decidableLE (left right : Ballot) : Decidable (left ≤ right) :=
  decidable_of_iff _ le_def.symm

instance decidableLT (left right : Ballot) : Decidable (left < right) :=
  decidable_of_iff _ lt_def.symm

instance : LinearOrder Ballot where
  le_refl ballot := by rw [le_def]; omega
  le_trans first second third := by simp only [le_def]; omega
  lt_iff_le_not_ge left right := by simp only [le_def, lt_def]; omega
  le_antisymm := by
    rintro ⟨leftId, leftInstance⟩ ⟨rightId, rightInstance⟩
    simp only [le_def, Ballot.mk.injEq]
    omega
  le_total left right := by simp only [le_def]; omega
  toDecidableLE := decidableLE
  toDecidableLT := decidableLT
  toDecidableEq := inferInstance

end Ballot

structure PlexoHeartbeat where
  instanceId : Nat
  deriving DecidableEq

structure PlexoPreparation where
  instanceId : Nat
  proposalId : Nat
  typeName : String
  deriving DecidableEq

structure PlexoPromise where
  instanceId : Nat
  proposalId : Nat
  typeName : String
  acceptedInstanceId : Nat
  acceptedProposalId : Nat
  multicastIp : Option Packed
  deriving DecidableEq

structure PlexoRejection where
  instanceId : Nat
  proposalId : Nat
  typeName : String
  deriving DecidableEq

structure PlexoProposal where
  instanceId : Nat
  proposalId : Nat
  typeName : String
  multicastIp : Option Packed
  deriving DecidableEq

structure PlexoApproval where
  instanceId : Nat
  proposalId : Nat
  typeName : String
  multicastIp : Option Packed
  deriving DecidableEq

def PlexoPreparation.ballot (preparation : PlexoPreparation) : Ballot :=
  ⟨preparation.proposalId, preparation.instanceId⟩

def PlexoPromise.ballot (promise : PlexoPromise) : Ballot :=
  ⟨promise.proposalId, promise.instanceId⟩

def PlexoPromise.acceptedBallot (promise : PlexoPromise) : Ballot :=
  ⟨promise.acceptedProposalId, promise.acceptedInstanceId⟩

def PlexoProposal.ballot (proposal : PlexoProposal) : Ballot :=
  ⟨proposal.proposalId, proposal.instanceId⟩

def PlexoApproval.ballot (approval : PlexoApproval) : Ballot :=
  ⟨approval.proposalId, approval.instanceId⟩

/-- `proposal_is_newer`; both arguments only have to carry a ballot. -/
def proposalIsNewer (oldProposal newProposal : Ballot) : Bool :=
  oldProposal < newProposal

/-- `proposal_is_equal`. -/
def proposalIsEqual (oldProposal newProposal : Ballot) : Bool :=
  oldProposal = newProposal

/-- `newest_accepted_proposal`; of two promises with equal accepted ballots the
second one wins. -/
def newestAcceptedProposal (p1 p2 : PlexoPromise) : PlexoPromise :=
  if p2.acceptedBallot < p1.acceptedBallot then p1 else p2

inductive Message where
  | heartbeat (body : PlexoHeartbeat)
  | preparation (body : PlexoPreparation)
  | promise (body : PlexoPromise)
  | rejection (body : PlexoRejection)
  | proposal (body : PlexoProposal)
  | approval (body : PlexoApproval)
  deriving DecidableEq

/-- The type that a message is about; heartbeats are about none. -/
def Message.typeName? : Message → Option String
  | .heartbeat _ => none
  | .preparation body => some body.typeName
  | .promise body => some body.typeName
  | .rejection body => some body.typeName
  | .proposal body => some body.typeName
  | .approval body => some body.typeName

def Message.ballot? : Message → Option Ballot
  | .heartbeat _ => none
  | .preparation body => some ⟨body.proposalId, body.instanceId⟩
  | .promise body => some body.ballot
  | .rejection body => some ⟨body.proposalId, body.instanceId⟩
  | .proposal body => some body.ballot
  | .approval body => some body.ballot

/-- An encoded struct: a section of 64-bit words, and one of pointers of which
the first holds `typeName` and the second `multicastIp` where there is one. -/
structure CapnpStruct where
  words : List Nat
  text : Option String
  data : Option Packed

/-- `dumps`: fields are laid out by their ordinals in the schema. -/
def Message.dumps : Message → CapnpStruct
  | .heartbeat body => ⟨[body.instanceId], none, none⟩
  | .preparation body =>
      ⟨[body.instanceId, body.proposalId], some body.typeName, none⟩
  | .promise body =>
      ⟨[body.instanceId, body.proposalId, body.acceptedInstanceId,
        body.acceptedProposalId], some body.typeName, body.multicastIp⟩
  | .rejection body =>
      ⟨[body.instanceId, body.proposalId], some body.typeName, none⟩
  | .proposal body =>
      ⟨[body.instanceId, body.proposalId], some body.typeName, body.multicastIp⟩
  | .approval body =>
      ⟨[body.instanceId, body.proposalId], some body.typeName, body.multicastIp⟩

namespace CapnpStruct

/-- A word beyond the encoded section reads as zero. -/
def word (struct : CapnpStruct) (index : Nat) : Nat :=
  struct.words.getD index 0

def typeName (struct : CapnpStruct) : String :=
  struct.text.getD ""

/-- `loads` with the schema of a protocol neuron. -/
def loads (struct : CapnpStruct) : ProtocolNeuron → Message
  | .heartbeat => .heartbeat ⟨struct.word 0⟩
  | .preparation => .preparation ⟨struct.word 0, struct.word 1, struct.typeName⟩
  | .promise =>
      .promise ⟨struct.word 0, struct.word 1, struct.typeName, struct.word 2,
        struct.word 3, struct.data⟩
  | .rejection => .rejection ⟨struct.word 0, struct.word 1, struct.typeName⟩
  | .proposal =>
      .proposal ⟨struct.word 0, struct.word 1, struct.typeName, struct.data⟩
  | .approval =>
      .approval ⟨struct.word 0, struct.word 1, struct.typeName, struct.data⟩

end CapnpStruct

/-- The neuron whose schema a message is written in. -/
def Message.neuron : Message → ProtocolNeuron
  | .heartbeat _ => .heartbeat
  | .preparation _ => .preparation
  | .promise _ => .promise
  | .rejection _ => .rejection
  | .proposal _ => .proposal
  | .approval _ => .approval

def Message.isFor (kind : ProtocolNeuron) (name : String) (ballot : Ballot)
    (message : Message) : Bool :=
  kind = message.neuron ∧ message.typeName? = some name ∧
    message.ballot? = some ballot

section IsFor

variable {kind : ProtocolNeuron} {name : String} {ballot : Ballot}

@[simp] theorem Message.isFor_heartbeat (body : PlexoHeartbeat) :
    (Message.heartbeat body).isFor kind name ballot = false := by
  simp [isFor, typeName?]

@[simp] theorem Message.isFor_preparation (body : PlexoPreparation) :
    (Message.preparation body).isFor kind name ballot = true ↔
      kind = .preparation ∧ body.typeName = name ∧ body.ballot = ballot := by
  simp [isFor, neuron, typeName?, ballot?, PlexoPreparation.ballot]

@[simp] theorem Message.isFor_promise (body : PlexoPromise) :
    (Message.promise body).isFor kind name ballot = true ↔
      kind = .promise ∧ body.typeName = name ∧ body.ballot = ballot := by
  simp [isFor, neuron, typeName?, ballot?]

@[simp] theorem Message.isFor_rejection (body : PlexoRejection) :
    (Message.rejection body).isFor kind name ballot = true ↔
      kind = .rejection ∧ body.typeName = name ∧
        ⟨body.proposalId, body.instanceId⟩ = ballot := by
  simp [isFor, neuron, typeName?, ballot?]

@[simp] theorem Message.isFor_proposal (body : PlexoProposal) :
    (Message.proposal body).isFor kind name ballot = true ↔
      kind = .proposal ∧ body.typeName = name ∧ body.ballot = ballot := by
  simp [isFor, neuron, typeName?, ballot?]

@[simp] theorem Message.isFor_approval (body : PlexoApproval) :
    (Message.approval body).isFor kind name ballot = true ↔
      kind = .approval ∧ body.typeName = name ∧ body.ballot = ballot := by
  simp [isFor, neuron, typeName?, ballot?]

end IsFor

theorem Message.loads_dumps (message : Message) :
    message.dumps.loads message.neuron = message := by
  cases message <;> rfl

/-- A promise decoded with the schema of proposals reads as a proposal of the
promised ballot for the reported address. -/
theorem loads_promise_as_proposal (body : PlexoPromise) :
    (Message.promise body).dumps.loads .proposal =
      .proposal ⟨body.instanceId, body.proposalId, body.typeName,
        body.multicastIp⟩ := rfl

theorem loads_neuron (struct : CapnpStruct) (neuron : ProtocolNeuron) :
    (struct.loads neuron).neuron = neuron := by
  cases neuron <;> rfl

end Plexo
