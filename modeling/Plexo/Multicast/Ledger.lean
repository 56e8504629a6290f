import Plexo.Multicast.Network
import Plexo.Multicast.PromiseGuarantee

/-!
# The ledger of a group

What the instances of a group have proposed, accepted and promised, read off
the history.  As long as no instance goes back behind its promises, a promise
covers all that its sender accepted, or will ever accept, below the promised
ballot.
-/

namespace Plexo

open PersistentMap Transition

namespace Network

variable {N : Nat}

def Accepts (network : Network N) (acceptor : Fin N)
    (proposal : PlexoProposal) : Prop :=
  (acceptor, Output.accept proposal) ∈ network.history

def Promises (network : Network N) (acceptor : Fin N)
    (promise : PlexoPromise) : Prop :=
  ∃ neuron, (acceptor, Output.transmit neuron (.promise promise)) ∈
    network.history

def Proposes (network : Network N) (proposer : Fin N)
    (proposal : PlexoProposal) : Prop :=
  ∃ neuron, (proposer, Output.transmit neuron (.proposal proposal)) ∈
    network.history

def keepsPromise (network : Network N) : NetworkAction N → Bool
  | .act instance_ action =>
      (network.ganglion instance_).keepsPromise (.own action)
  | _ => true

theorem Readied.keepsPromise {decoding : Decoding} {network before : Network N}
    {action : NetworkAction N} {instance_ : Fin N} {input : Input}
    (ready : Readied decoding network action instance_ input before)
    (keeps : network.keepsPromise action = true) :
    (network.ganglion instance_).keepsPromise input = true := by
  cases ready with
  | own => exact keeps
  | receive waiting => rfl

structure Ledger (network : Network N) : Prop where
  backed : ∀ acceptor proposal, network.Accepts acceptor proposal →
    ∃ proposer, network.Proposes proposer proposal
  proposed : ∀ proposer proposal, network.Proposes proposer proposal →
    network.Accepts proposer proposal ∧
      ∃ multicastAddress : IPAddress,
        proposal.multicastIp = some multicastAddress.packed
  stored : ∀ acceptor proposal, network.Accepts acceptor proposal →
    ∃ entry, (network.ganglion acceptor).proposals proposal.typeName =
        some entry ∧
      entry.multicastIp.isSome = true ∧ proposal.ballot ≤ entry.ballot
  promised : ∀ acceptor promise, network.Promises acceptor promise →
    (promise.ballot : WithBot Ballot) ≤
      (network.ganglion acceptor).storedBallot promise.typeName
  covered : ∀ acceptor promise proposal, network.Promises acceptor promise →
    network.Accepts acceptor proposal →
    proposal.typeName = promise.typeName → proposal.ballot < promise.ballot →
    promise.multicastIp.isSome = true ∧
      proposal.ballot ≤ promise.acceptedBallot

theorem ledger_ofGanglia (ganglion : Fin N → GanglionPlexoMulticast) :
    (ofGanglia ganglion).Ledger := by
  constructor <;> simp [ofGanglia, Accepts, Promises, Proposes]

theorem Ledger.accepted_le {network : Network N} (ledger : network.Ledger)
    {acceptor : Fin N} {proposal : PlexoProposal}
    (accepts : network.Accepts acceptor proposal) :
    (proposal.ballot : WithBot Ballot) ≤
      (network.ganglion acceptor).storedBallot proposal.typeName := by
  obtain ⟨entry, found, _, above⟩ := ledger.stored acceptor proposal accepts
  simpa [GanglionPlexoMulticast.storedBallot, found] using above

/-- Bounds rise and entries keep an address: what a step does to the ledger
when the instance accepts and promises nothing new. -/
theorem Ledger.extend {network next : Network N} (ledger : network.Ledger)
    (accepts : ∀ acceptor proposal,
      next.Accepts acceptor proposal ↔ network.Accepts acceptor proposal)
    (promises : ∀ acceptor promise,
      next.Promises acceptor promise ↔ network.Promises acceptor promise)
    (proposes : ∀ proposer proposal,
      next.Proposes proposer proposal ↔ network.Proposes proposer proposal)
    (same : ∀ acceptor, (next.ganglion acceptor).proposals =
      (network.ganglion acceptor).proposals) : next.Ledger := by
  constructor
  · intro acceptor proposal accepted
    obtain ⟨proposer, proposed⟩ :=
      ledger.backed acceptor proposal ((accepts _ _).mp accepted)
    exact ⟨proposer, (proposes _ _).mpr proposed⟩
  · intro proposer proposal proposed
    obtain ⟨accepted, address⟩ :=
      ledger.proposed proposer proposal ((proposes _ _).mp proposed)
    exact ⟨(accepts _ _).mpr accepted, address⟩
  · intro acceptor proposal accepted
    rw [same]
    exact ledger.stored acceptor proposal ((accepts _ _).mp accepted)
  · intro acceptor promise promised
    unfold GanglionPlexoMulticast.storedBallot
    rw [same]
    exact ledger.promised acceptor promise ((promises _ _).mp promised)
  · intro acceptor promise proposal promised accepted
    exact ledger.covered acceptor promise proposal ((promises _ _).mp promised)
      ((accepts _ _).mp accepted)

section Record

variable {network : Network N} {instance_ : Fin N}
  {result : GanglionPlexoMulticast × List Output}

theorem accepts_record {acceptor : Fin N} {proposal : PlexoProposal} :
    (network.record instance_ result).Accepts acceptor proposal ↔
      acceptor = instance_ ∧ Output.accept proposal ∈ result.2 ∨
        network.Accepts acceptor proposal :=
  mem_record_history

theorem transmits_record {source : Fin N} {message : Message} :
    (∃ neuron, (source, Output.transmit neuron message) ∈
        (network.record instance_ result).history) ↔
      (source = instance_ ∧ ∃ neuron,
        Output.transmit neuron message ∈ result.2) ∨
        ∃ neuron, (source, Output.transmit neuron message) ∈
          network.history := by
  simp only [mem_record_history]
  constructor
  · rintro ⟨neuron, ⟨same, new⟩ | old⟩
    · exact .inl ⟨same, neuron, new⟩
    · exact .inr ⟨neuron, old⟩
  · rintro (⟨same, neuron, new⟩ | ⟨neuron, old⟩)
    · exact ⟨neuron, .inl ⟨same, new⟩⟩
    · exact ⟨neuron, .inr old⟩

theorem promises_record {acceptor : Fin N} {promise : PlexoPromise} :
    (network.record instance_ result).Promises acceptor promise ↔
      (acceptor = instance_ ∧
        ∃ neuron, Output.transmit neuron (.promise promise) ∈ result.2) ∨
        network.Promises acceptor promise :=
  transmits_record

theorem proposes_record {proposer : Fin N} {proposal : PlexoProposal} :
    (network.record instance_ result).Proposes proposer proposal ↔
      (proposer = instance_ ∧
        ∃ neuron, Output.transmit neuron (.proposal proposal) ∈ result.2) ∨
        network.Proposes proposer proposal :=
  transmits_record

theorem Ledger.write (ledger : network.Ledger) {entry : PlexoProposal}
    (stores : result.1.proposals =
      (network.ganglion instance_).proposals.set entry.typeName entry)
    (raises : (network.ganglion instance_).storedBallot entry.typeName ≤
      (entry.ballot : WithBot Ballot))
    (keepsAddress : ∀ proposal, network.Accepts instance_ proposal →
      proposal.typeName = entry.typeName → entry.multicastIp.isSome = true)
    (accepts : ∀ proposal, Output.accept proposal ∈ result.2 →
      proposal = entry ∧ entry.multicastIp.isSome = true ∧
        ∃ proposer, (network.record instance_ result).Proposes proposer entry)
    (promises : ∀ neuron promise,
      Output.transmit neuron (.promise promise) ∈ result.2 →
      promise.typeName = entry.typeName ∧ promise.ballot = entry.ballot ∧
        ∀ proposal, network.Accepts instance_ proposal →
          proposal.typeName = entry.typeName →
          promise.multicastIp.isSome = true ∧
            proposal.ballot ≤ promise.acceptedBallot)
    (proposes : ∀ neuron proposal,
      Output.transmit neuron (.proposal proposal) ∈ result.2 →
      Output.accept proposal ∈ result.2 ∧ ∃ multicastAddress : IPAddress,
        proposal.multicastIp = some multicastAddress.packed) :
    (network.record instance_ result).Ledger := by
  have bound : ∀ name, result.1.storedBallot name =
      if name = entry.typeName then (entry.ballot : WithBot Ballot)
      else (network.ganglion instance_).storedBallot name :=
    GanglionPlexoMulticast.storedBallot_of_set stores
  have rises : ∀ acceptor name,
      (network.ganglion acceptor).storedBallot name ≤
        ((network.record instance_ result).ganglion acceptor).storedBallot
          name := by
    intro acceptor name
    by_cases same : acceptor = instance_
    · subst same
      rw [record_ganglion_self, bound]
      split
      · next sameName => exact sameName ▸ raises
      · exact le_rfl
    · rw [record_ganglion_other _ _ same]
  constructor
  · intro acceptor proposal accepted
    rcases accepts_record.mp accepted with ⟨rfl, new⟩ | old
    · obtain ⟨rfl, _, proposed⟩ := accepts proposal new
      exact proposed
    · obtain ⟨proposer, proposed⟩ := ledger.backed acceptor proposal old
      exact ⟨proposer, proposes_record.mpr (.inr proposed)⟩
  · intro proposer proposal proposed
    rcases proposes_record.mp proposed with ⟨rfl, neuron, new⟩ | old
    · obtain ⟨accepted, address⟩ := proposes neuron proposal new
      exact ⟨accepts_record.mpr (.inl ⟨rfl, accepted⟩), address⟩
    · obtain ⟨accepted, address⟩ := ledger.proposed proposer proposal old
      exact ⟨accepts_record.mpr (.inr accepted), address⟩
  · intro acceptor proposal accepted
    rcases accepts_record.mp accepted with ⟨rfl, new⟩ | old
    · obtain ⟨rfl, hasAddress, _⟩ := accepts proposal new
      refine ⟨proposal, ?_, hasAddress, le_rfl⟩
      simp [stores]
    · by_cases here : acceptor = instance_ ∧
          proposal.typeName = entry.typeName
      · obtain ⟨rfl, sameName⟩ := here
        refine ⟨entry, by simp [stores, sameName],
          keepsAddress proposal old sameName, ?_⟩
        have below := ledger.accepted_le old
        rw [sameName] at below
        exact WithBot.coe_le_coe.mp (le_trans below raises)
      · obtain ⟨before, found, kept⟩ := ledger.stored acceptor proposal old
        refine ⟨before, ?_, kept⟩
        by_cases same : acceptor = instance_
        · subst same
          have otherName : proposal.typeName ≠ entry.typeName :=
            fun sameName => here ⟨rfl, sameName⟩
          rw [record_ganglion_self, stores, PMap.set_apply, if_neg otherName]
          exact found
        · rwa [record_ganglion_other _ _ same]
  · intro acceptor promise promised
    rcases promises_record.mp promised with ⟨rfl, neuron, new⟩ | old
    · obtain ⟨sameName, sameBallot, _⟩ := promises neuron promise new
      rw [record_ganglion_self, bound, if_pos sameName, sameBallot]
    · exact le_trans (ledger.promised acceptor promise old) (rises acceptor _)
  · intro acceptor promise proposal promised accepted sameName below
    rcases promises_record.mp promised with ⟨rfl, neuron, new⟩ | old
    · obtain ⟨promiseName, promiseBallot, covers⟩ := promises neuron promise new
      rcases accepts_record.mp accepted with ⟨_, newAccept⟩ | oldAccept
      · obtain ⟨rfl, _⟩ := accepts proposal newAccept
        exact absurd promiseBallot (ne_of_gt below)
      · exact covers proposal oldAccept (sameName.trans promiseName)
    · rcases accepts_record.mp accepted with ⟨rfl, newAccept⟩ | oldAccept
      · -- what is accepted now is not below what was promised before
        obtain ⟨rfl, _⟩ := accepts proposal newAccept
        have above := ledger.promised acceptor promise old
        rw [← sameName] at above
        exact absurd below
          (not_lt_of_ge (WithBot.coe_le_coe.mp (le_trans above raises)))
      · exact ledger.covered acceptor promise proposal old oldAccept sameName
          below

end Record

theorem Readied.ledger {decoding : Decoding} {network before : Network N}
    {action : NetworkAction N} {instance_ : Fin N} {input : Input}
    (ready : Readied decoding network action instance_ input before)
    (ledger : network.Ledger) : before.Ledger := by
  apply ledger.extend
  · intro acceptor proposal
    rw [Accepts, ready.history_eq, Accepts]
  · intro acceptor promise
    simp only [Promises, ready.history_eq]
  · intro proposer proposal
    simp only [Proposes, ready.history_eq]
  · intro acceptor
    rw [ready.ganglion_eq]

theorem Readied.sent_of_receive {network before : Network N}
    {action : NetworkAction N} {instance_ : Fin N} {message : Message}
    (ready : Readied ownType network action instance_ (.receive message) before)
    (conserved : network.Conserved) :
    ∃ source neuron, source ≠ instance_ ∧
      (source, Output.transmit neuron message) ∈ network.history := by
  cases ready with
  | @receive envelope waiting =>
      have account := conserved envelope.target fun source message =>
        source = envelope.source && message = envelope.message
      have addressed : 0 < network.addressedTo envelope.target
          fun source message =>
            source = envelope.source && message = envelope.message := by
        refine List.countP_pos_iff.mpr
          ⟨envelope, List.mem_append_left _ waiting, ?_⟩
        simp [Envelope.carries]
      obtain ⟨⟨source, output⟩, member, sends⟩ :=
        List.countP_pos_iff.mp (lt_of_lt_of_le addressed account)
      simp only [Output.transmits_and, Bool.and_eq_true,
        decide_eq_true_eq] at sends
      obtain ⟨different, rfl, transmitted⟩ := sends
      cases output with
      | transmit neuron message =>
          have same : message = envelope.message := by
            simpa [Output.transmits] using transmitted
          subst same
          exact ⟨envelope.source, neuron, different, member⟩
      | _ => simp [Output.transmits] at transmitted

theorem Ledger.step {host : Fin N → Host} {network next : Network N}
    {action : NetworkAction N} (ledger : network.Ledger)
    (conserved : network.Conserved)
    (keeps : network.keepsPromise action = true)
    (taken : network.step ownType host action = some next) :
    next.Ledger := by
  cases move_of_step taken with
  | lose chosen =>
      exact ledger.extend (fun _ _ => .rfl) (fun _ _ => .rfl) (fun _ _ => .rfl)
        fun _ => rfl
  | @take instance_ input before result ready resultTaken =>
      have keepsHere := ready.keepsPromise keeps
      have ledgerBefore := ready.ledger ledger
      rw [← ready.ganglion_eq] at resultTaken keepsHere
      cases GanglionPlexoMulticast.acceptorMove_of_step resultTaken with
      | idle unchanged quiet =>
          have silent : ∀ output ∈ result.2, output.isQuiet = false →
              False := by
            intro output member loud
            simp [quiet output member] at loud
          refine ledgerBefore.extend ?_ ?_ ?_ ?_
          · intro acceptor proposal
            rw [accepts_record]
            refine or_iff_right ?_
            rintro ⟨_, new⟩
            exact silent _ new rfl
          · intro acceptor promise
            rw [promises_record]
            refine or_iff_right ?_
            rintro ⟨_, neuron, new⟩
            exact silent _ new rfl
          · intro proposer proposal
            rw [proposes_record]
            refine or_iff_right ?_
            rintro ⟨_, neuron, new⟩
            exact silent _ new rfl
          · intro acceptor
            by_cases same : acceptor = instance_
            · subst same
              rw [record_ganglion_self, unchanged]
            · rw [record_ganglion_other _ _ same]
      | @promise preparation foreign newer stores outputs =>
          let entry := promisedProposal ((before.ganglion instance_).proposals
            preparation.typeName) preparation
          have raises : (before.ganglion instance_).storedBallot
              entry.typeName ≤ (entry.ballot : WithBot Ballot) :=
            le_of_lt ((mayPromise_iff _ _).mp newer)
          refine ledgerBefore.write stores raises ?_ ?_ ?_ ?_
          · intro proposal accepted sameName
            obtain ⟨stored, found, hasAddress, _⟩ :=
              ledgerBefore.stored instance_ proposal accepted
            have foundHere : (before.ganglion instance_).proposals
                preparation.typeName = some stored := by
              rw [← found, sameName]
              rfl
            simpa [entry, promisedProposal, foundHere] using hasAddress
          · intro proposal member
            simp [outputs] at member
          · intro neuron promise member
            rw [outputs, List.mem_singleton] at member
            cases member
            refine ⟨rfl, rfl, ?_⟩
            intro proposal accepted sameName
            obtain ⟨stored, found, hasAddress, above⟩ :=
              ledgerBefore.stored instance_ proposal accepted
            have foundHere : (before.ganglion instance_).proposals
                preparation.typeName = some stored := by
              rw [← found, sameName]
              rfl
            simp only [promiseFor, foundHere]
            exact ⟨hasAddress, above⟩
          · intro neuron proposal member
            simp [outputs] at member
      | @accept proposal current found same stores outputs =>
          obtain ⟨source, neuron, _, sent⟩ := ready.sent_of_receive conserved
          have proposes : before.Proposes source proposal := by
            rw [Proposes, ready.history_eq]
            exact ⟨neuron, sent⟩
          obtain ⟨_, multicastAddress, address⟩ :=
            ledgerBefore.proposed source proposal proposes
          have above : (before.ganglion instance_).storedBallot
              proposal.typeName ≤ (proposal.ballot : WithBot Ballot) := by
            simp [GanglionPlexoMulticast.storedBallot, found, same]
          refine ledgerBefore.write stores above (by simp [address]) ?_ ?_ ?_
          · intro accepted member
            have sameProposal : accepted = proposal := by
              simpa [outputs] using member
            exact ⟨sameProposal, by simp [address], source,
              proposes_record.mpr (.inr proposes)⟩
          · intro neuron promise member
            simp [outputs] at member
          · intro neuron proposal member
            simp [outputs] at member
      | @propose call preparation promises multicastAddress found stores
          outputs =>
          let entry := proposalFor preparation multicastAddress
          have raises : (before.ganglion instance_).storedBallot
              entry.typeName ≤ (entry.ballot : WithBot Ballot) :=
            (GanglionPlexoMulticast.keepsPromise_proposing found).mp keepsHere
          refine ledgerBefore.write stores raises (fun _ _ _ => rfl) ?_ ?_ ?_
          · intro accepted member
            have sameProposal :
                accepted = proposalFor preparation multicastAddress := by
              simpa [outputs] using member
            exact ⟨sameProposal, rfl, instance_,
              proposes_record.mpr
                (.inl ⟨rfl, .proposal, by simp [outputs, entry]⟩)⟩
          · intro neuron promise member
            simp [outputs] at member
          · intro neuron proposal member
            have sameProposal : neuron = .proposal ∧
                proposal = proposalFor preparation multicastAddress := by
              simpa [outputs] using member
            obtain ⟨rfl, rfl⟩ := sameProposal
            exact ⟨by simp [outputs], multicastAddress, rfl⟩

end Network

end Plexo
