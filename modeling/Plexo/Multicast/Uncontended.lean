import Plexo.Multicast.Bookkeeping
import Plexo.Multicast.Network
import Plexo.Multicast.Accounting
import Plexo.Multicast.Ownership

/-!
# A call without contention

Messages are decoded and handed on as `startup` wires them: by the neuron they
were sent on.  A promise goes out on the neuron of proposals, so no instance
ever hears a promise, and a call gets past its promise check only where it
needs none.
-/

namespace Plexo

open PersistentMap Transition

/-- The neuron that a message is sent on: a promise shares that of proposals. -/
def Message.sentOn : Message → ProtocolNeuron
  | .promise _ => .proposal
  | message => message.neuron

/-- Whatever is transmitted goes out on the neuron meant for it. -/
def Output.isWired : Output → Bool
  | .transmit neuron message => neuron = message.sentOn
  | _ => true

def NetworkAction.prepares {N : Nat} (name : String) : NetworkAction N → Bool
  | .act _ (.prepare _ other _) => other = name
  | _ => false

namespace Attempt

def remaining : Attempt → Nat
  | .transmittingPreparation _ => 5
  | .awaitingPromises _ _ => 4
  | .proposing _ _ _ => 3
  | .transmittingProposal _ _ => 2
  | .awaitingApprovals _ _ _ => 1
  | .returned _ _ => 0
  | .raised _ _ => 0

/-- A call for the type that has not ended. -/
def seeks (name : String) (attempt : Attempt) : Bool :=
  attempt.remaining ≠ 0 && attempt.key?.any (·.1 = name)

theorem seeks_settled (name : String) (attempt : Attempt) :
    attempt.settled.seeks name = attempt.seeks name := by
  cases attempt <;> rfl

/-- Where a call for a type is, if no other call for the type is on its way.
It gets past the promise check if the instance is `alone` and there was a
`free` address; from `_send_proposal` on its address is `stored`. -/
def InRound (name : String) (alone free : Prop) (stored : Option Packed) :
    Attempt → Prop
  | .transmittingPreparation preparation => preparation.typeName = name ∧ free
  | .awaitingPromises preparation _ => preparation.typeName = name ∧ free
  | .proposing preparation _ _ =>
      preparation.typeName = name ∧ alone ∧ free
  | .transmittingProposal proposal multicastAddress =>
      proposal.typeName = name ∧ alone ∧ free ∧
        stored = some multicastAddress.packed
  | .awaitingApprovals proposal multicastAddress _ =>
      proposal.typeName = name ∧ alone ∧ free ∧
        stored = some multicastAddress.packed
  | .returned _ multicastAddress =>
      alone ∧ free ∧ stored = some multicastAddress.packed
  | .raised _ _ => ¬ (alone ∧ free)

/-- The stored address plays no part for an instance that is not alone. -/
theorem InRound.restore {name : String} {alone free : Prop}
    {stored other : Option Packed} {attempt : Attempt} (notAlone : ¬ alone)
    (round : attempt.InRound name alone free stored) :
    attempt.InRound name alone free other := by
  cases attempt with
  | transmittingPreparation preparation => exact round
  | awaitingPromises preparation cancelled => exact round
  | proposing preparation promises multicastAddress => exact round
  | transmittingProposal proposal multicastAddress =>
      exact absurd round.2.1 notAlone
  | awaitingApprovals proposal multicastAddress cancelled =>
      exact absurd round.2.1 notAlone
  | «returned» proposal multicastAddress => exact absurd round.1 notAlone
  | raised other error => exact round

theorem inRound_settled {name : String} {alone free : Prop}
    {stored : Option Packed} {attempt : Attempt} :
    attempt.settled.InRound name alone free stored ↔
      attempt.InRound name alone free stored := by
  cases attempt <;> rfl

end Attempt

namespace GanglionPlexoMulticast

def storedAddress (ganglion : GanglionPlexoMulticast) (name : String) :
    Option Packed :=
  (ganglion.proposals name).bind (·.multicastIp)

theorem approvalReaction_isWired (host : Host)
    (ganglion : GanglionPlexoMulticast) (approval : PlexoApproval) :
    ∀ output ∈ (ganglion.approvalReaction host approval).2,
      output.isWired = true := by
  unfold approvalReaction commitApproval
  dsimp only
  split
  · split
    · simp
    · split
      · simp [Output.isWired]
      · split
        · simp [Output.isWired]
        · split <;> simp [Output.isWired]
  · simp

theorem isWired_of_act {host : Host} {ganglion : GanglionPlexoMulticast}
    {action : OwnAction} {result : GanglionPlexoMulticast × List Output}
    (taken : ganglion.act host action = some result) :
    ∀ output ∈ result.2, output.isWired = true := by
  cases ownStep_of_act taken with
  | prepare fresh => simp [sendPreparation, Output.isWired, Message.sentOn,
      Message.neuron]
  | checkPromises found canPop =>
      unfold checkPromises
      dsimp only
      split
      · simp
      · split <;> simp [Output.isWired]
  | sendProposal found => simp [sendProposal, Output.isWired, Message.sentOn,
      Message.neuron]
  | checkApprovals found =>
      unfold checkApprovals
      dsimp only
      split <;> simp [Output.isWired]
  | approve pending => apply approvalReaction_isWired
  | createSynapse found same =>
      unfold raisedBy
      split <;> simp [Output.isWired]
  | _ => simp

theorem isWired_of_react (host : Host) (ganglion : GanglionPlexoMulticast)
    (message : Message) :
    ∀ output ∈ (ganglion.react host message).2, output.isWired = true := by
  cases message with
  | heartbeat body => simp [react]
  | preparation body =>
      simp only [react, preparationReaction]
      split
      · simp
      · split <;> simp [Output.isWired, Message.sentOn, Message.neuron]
  | promise body =>
      simp only [react, promiseReaction]
      split <;> simp
  | rejection body =>
      simp only [react, rejectionReaction]
      split <;> simp
  | proposal body =>
      simp only [react, proposalReaction]
      split
      · simp [Output.isWired]
      · split <;> simp [Output.isWired, Message.sentOn, Message.neuron]
  | approval body => apply approvalReaction_isWired

theorem isWired_of_step {host : Host} {ganglion : GanglionPlexoMulticast}
    {input : Input} {result : GanglionPlexoMulticast × List Output}
    (taken : ganglion.step host input = some result) :
    ∀ output ∈ result.2, output.isWired = true := by
  cases input with
  | own action => exact isWired_of_act taken
  | receive message =>
      exact Option.some.inj taken ▸ isWired_of_react host ganglion message

theorem collectedRejections_of_act {host : Host}
    {ganglion : GanglionPlexoMulticast} {action : OwnAction}
    {result : GanglionPlexoMulticast × List Output}
    (taken : ganglion.act host action = some result) (name : String) :
    result.1.collectedRejections name ≤ ganglion.collectedRejections name := by
  cases ownStep_of_act taken with
  | @checkPromises call preparation cancelled popped found canPop =>
      have cleared : (ganglion.checkPromises call preparation
          popped).1.preparationRejections =
            ganglion.preparationRejections.discard preparation.typeName := by
        unfold checkPromises
        dsimp only
        split
        · rfl
        · split <;> rfl
      unfold collectedRejections
      rw [cleared, PMap.discard_apply]
      split <;> simp
  | checkApprovals found =>
      unfold checkApprovals
      dsimp only
      split <;> exact le_rfl
  | approve pending =>
      unfold approvalReaction commitApproval
      dsimp only
      split
      · split
        · exact le_rfl
        · split
          · exact le_rfl
          · split
            · exact le_rfl
            · split <;> exact le_rfl
      · exact le_rfl
  | _ => exact le_rfl

theorem checkPromises_calls (ganglion : GanglionPlexoMulticast)
    (call : CallId) (preparation : PlexoPreparation) (popped : IPAddress) :
    ∃ later, (ganglion.checkPromises call preparation popped).1.calls =
      ganglion.calls.set call later ∧ later.remaining < 4 := by
  unfold checkPromises
  dsimp only
  split
  · exact ⟨_, rfl, by simp [Attempt.remaining]⟩
  · split
    · exact ⟨_, rfl, by simp [Attempt.remaining]⟩
    · exact ⟨_, rfl, by simp [Attempt.remaining]⟩

theorem checkApprovals_calls (ganglion : GanglionPlexoMulticast)
    (call : CallId) (proposal : PlexoProposal) (multicastAddress : IPAddress) :
    ∃ later, (ganglion.checkApprovals call proposal multicastAddress).1.calls =
      ganglion.calls.set call later ∧ later.remaining = 0 := by
  unfold checkApprovals
  dsimp only
  split
  · exact ⟨_, rfl, rfl⟩
  · exact ⟨_, rfl, rfl⟩

theorem checkPromises_unheard {ganglion : GanglionPlexoMulticast}
    {call : CallId} {preparation : PlexoPreparation} {popped : IPAddress}
    (canPop : ganglion.CanPop popped)
    (consistent : ganglion.registry.ipLeaseManager.Consistent)
    (unheard : ganglion.collectedPromises preparation.typeName = []) :
    ∃ later, (ganglion.checkPromises call preparation popped).1.calls =
        ganglion.calls.set call later ∧
      if ganglion.numPeers = 0 ∧
          ganglion.collectedRejections preparation.typeName = 0 ∧
          ganglion.registry.ipLeaseManager.availableIps ≠ ∅ then
        later = .proposing preparation [] popped
      else
        ∃ error, later = .raised preparation.typeName error := by
  have passes : ganglion.preparationRejected preparation.typeName = false ↔
      ganglion.numPeers = 0 ∧
        ganglion.collectedRejections preparation.typeName = 0 := by
    unfold preparationRejected
    rw [unheard, Bool.or_eq_false_iff]
    simp only [List.length_nil, decide_eq_false_iff_not]
    omega
  unfold checkPromises
  dsimp only
  cases rejected : ganglion.preparationRejected preparation.typeName with
  | true =>
      refine ⟨_, rfl, ?_⟩
      rw [if_neg (by simp [← and_assoc, ← passes, rejected])]
      exact ⟨_, rfl⟩
  | false =>
      obtain ⟨solitary, unrejected⟩ := passes.mp rejected
      have given := IpLeaseManager.getAddress_of_canPop consistent canPop
      rw [unheard, if_neg Bool.false_ne_true]
      simp only [solitary, unrejected, true_and]
      have chosen : (chooseAddress ganglion.registry [] popped).1 =
          (ganglion.registry.ipLeaseManager.getAddress popped).1 := rfl
      rw [given] at chosen
      cases outcome : chooseAddress ganglion.registry [] popped with
      | mk choice registry =>
          rw [outcome] at chosen
          dsimp only at chosen
          by_cases exhausted :
              ganglion.registry.ipLeaseManager.availableIps = ∅
          · rw [if_pos exhausted] at chosen
            subst chosen
            refine ⟨_, rfl, ?_⟩
            rw [if_neg (not_not_intro exhausted)]
            exact ⟨_, rfl⟩
          · rw [if_neg exhausted] at chosen
            subst chosen
            refine ⟨_, rfl, ?_⟩
            rw [if_pos exhausted]

section Round

variable {host : Host} {ganglion : GanglionPlexoMulticast} {action : OwnAction}
  {result : GanglionPlexoMulticast × List Output} {name : String}
  {call : CallId} {attempt : Attempt} {alone free after : Prop}

/-- A step of the instance takes its call for a type one step further, or
leaves it where it is. -/
theorem inRound_of_act
    (taken : ganglion.act host action = some result)
    (found : ganglion.calls call = some attempt)
    (round : attempt.InRound name alone free (ganglion.storedAddress name))
    (others : ∀ other another, other ≠ call →
      ganglion.calls other = some another → another.seeks name = false)
    (unheard : ganglion.collectedPromises name = [])
    (unrejected : alone → ganglion.collectedRejections name = 0)
    (solitary : alone ↔ ganglion.numPeers = 0)
    (consistent : ganglion.registry.ipLeaseManager.Consistent)
    (goesOn : after ↔ free ∧ ∀ popped, action = .checkPromises call popped →
      ganglion.registry.ipLeaseManager.availableIps ≠ ∅) :
    ∃ later, result.1.calls call = some later ∧
      later.InRound name alone after (result.1.storedAddress name) := by
  have keep (settled : (result.1.calls call).map Attempt.settled =
        (ganglion.calls call).map Attempt.settled)
      (proposals : result.1.proposals name = ganglion.proposals name)
      (elsewhere : ∀ popped, action ≠ .checkPromises call popped) :
      ∃ later, result.1.calls call = some later ∧
        later.InRound name alone after (result.1.storedAddress name) := by
    have sameFree : after = free := by
      rw [goesOn, and_iff_left (fun popped same => absurd same (elsewhere _))]
    rw [found, Option.map_some, Option.map_eq_some_iff] at settled
    obtain ⟨later, foundAfter, same⟩ := settled
    refine ⟨later, foundAfter, ?_⟩
    rw [← Attempt.inRound_settled, same, Attempt.inRound_settled, sameFree,
      storedAddress, proposals]
    exact round
  have keepOther {other : CallId} {later : Attempt} (different : other ≠ call)
      (calls : result.1.calls = ganglion.calls.set other later)
      (proposals : result.1.proposals name = ganglion.proposals name)
      (elsewhere : ∀ popped, action ≠ .checkPromises call popped) :
      ∃ later, result.1.calls call = some later ∧
        later.InRound name alone after (result.1.storedAddress name) := by
    apply keep
    · rw [calls, PMap.set_of_ne _ _ different.symm]
    · exact proposals
    · exact elsewhere
  have goOn (elsewhere : ∀ popped, action ≠ .checkPromises call popped) :
      after = free := by
    rw [goesOn, and_iff_left (fun popped same => absurd same (elsewhere _))]
  cases ownStep_of_act taken with
  | @prepare other name newProposalId fresh =>
      apply keepOther _ rfl rfl (by simp)
      rintro rfl
      simp [fresh] at found
  | @startPreparationTimer other preparation here =>
      by_cases same : other = call
      · subst same
        obtain rfl := Option.some.inj (found.symm.trans here)
        refine ⟨_, PMap.set_self _ _ _, ?_⟩
        rw [goOn (by simp)]
        exact round
      · exact keepOther same rfl rfl (by simp)
  | @checkPromises other preparation cancelled popped here canPop =>
      by_cases same : other = call
      · subst same
        obtain rfl := Option.some.inj (found.symm.trans here)
        obtain ⟨rfl, wasFree⟩ := round
        obtain ⟨later, calls, outcome⟩ :=
          checkPromises_unheard canPop consistent unheard
        refine ⟨later, by rw [calls, PMap.set_self], ?_⟩
        split at outcome
        · next passes =>
            obtain ⟨noPeers, _, available⟩ := passes
            subst outcome
            exact ⟨rfl, solitary.mpr noPeers,
              goesOn.mpr ⟨wasFree, fun _ _ => available⟩⟩
        · next fails =>
            obtain ⟨error, rfl⟩ := outcome
            rintro ⟨isAlone, isFree⟩
            exact fails ⟨solitary.mp isAlone, unrejected isAlone,
              (goesOn.mp isFree).2 popped rfl⟩
      · obtain ⟨later, calls, _⟩ :=
          checkPromises_calls ganglion other preparation popped
        apply keepOther same calls
        · rw [(checkPromises_proposals ..).1]
        · simp [same]
  | @sendProposal other preparation promises multicastAddress here =>
      by_cases same : other = call
      · subst same
        obtain rfl := Option.some.inj (found.symm.trans here)
        obtain ⟨rfl, isAlone, isFree⟩ := round
        refine ⟨_, PMap.set_self _ _ _, rfl, isAlone, ?_, ?_⟩
        · rw [goOn (by simp)]
          exact isFree
        · simp [storedAddress, sendProposal, proposalFor]
      · apply keepOther same rfl ?_ (by simp)
        have elsewhere := others other _ same here
        apply PMap.set_of_ne
        simpa [Attempt.seeks, Attempt.remaining, Attempt.key?, eq_comm]
          using elsewhere
  | @startProposalTimer other proposal multicastAddress here =>
      by_cases same : other = call
      · subst same
        obtain rfl := Option.some.inj (found.symm.trans here)
        refine ⟨_, PMap.set_self _ _ _, ?_⟩
        rw [goOn (by simp)]
        exact round
      · exact keepOther same rfl rfl (by simp)
  | @checkApprovals other proposal multicastAddress cancelled here =>
      by_cases same : other = call
      · subst same
        obtain rfl := Option.some.inj (found.symm.trans here)
        obtain ⟨rfl, isAlone, isFree, stored⟩ := round
        unfold checkApprovals
        dsimp only
        rw [if_pos (by simp [solitary.mp isAlone])]
        refine ⟨_, PMap.set_self _ _ _, isAlone, ?_, stored⟩
        rw [goOn (by simp)]
        exact isFree
      · obtain ⟨later, calls, _⟩ :=
          checkApprovals_calls ganglion other proposal multicastAddress
        apply keepOther same calls
        · rw [(checkApprovals_proposals ..).1]
        · simp
  | approve pending =>
      apply keep
      · exact (approvalReaction_calls ..).1 call
      · rw [(approvalReaction_proposals ..).1]
      · simp
  | countPeers => exact keep rfl rfl (by simp)
  | createSynapse here same => exact keep rfl rfl (by simp)
  | addReactants here => exact keep rfl rfl (by simp)
  | addRawReactants here => exact keep rfl rfl (by simp)
  | updateTransmitter here => exact keep rfl rfl (by simp)
  | createExternalTransmitter => exact keep rfl rfl (by simp)

theorem inRound_of_react (message : Message) (notAlone : ¬ alone)
    (found : ganglion.calls call = some attempt)
    (round : attempt.InRound name alone free (ganglion.storedAddress name)) :
    ∃ later, (ganglion.react host message).1.calls call = some later ∧
      later.InRound name alone free
        ((ganglion.react host message).1.storedAddress name) := by
  cases proposerMove_of_react host ganglion message with
  | idle same _ =>
      obtain ⟨later, foundAfter, sameSettled⟩ := same.later found
      refine ⟨later, foundAfter, ?_⟩
      rw [← Attempt.inRound_settled, sameSettled, Attempt.inRound_settled]
      exact round.restore notAlone

end Round

theorem seeks_of_step {host : Host} {ganglion : GanglionPlexoMulticast}
    {input : Input} {result : GanglionPlexoMulticast × List Output}
    {name : String} {other : CallId} {later : Attempt}
    (taken : ganglion.step host input = some result)
    (starts : ∀ call newProposalId,
      input ≠ .own (.prepare call name newProposalId))
    (found : result.1.calls other = some later)
    (seeks : later.seeks name = true) :
    ∃ earlier, ganglion.calls other = some earlier ∧
      earlier.seeks name = true := by
  have goesOn {call : CallId} {earlier next : Attempt}
      (here : ganglion.calls call = some earlier)
      (calls : result.1.calls = ganglion.calls.set call next)
      (same : next.seeks name = true → earlier.seeks name = true) :
      ∃ earlier, ganglion.calls other = some earlier ∧
        earlier.seeks name = true := by
    rw [calls, PMap.set_apply] at found
    split at found
    · next sameCall =>
        cases found
        exact ⟨earlier, sameCall ▸ here, same seeks⟩
    · exact ⟨later, found, seeks⟩
  cases proposerMove_of_step taken with
  | idle same _ =>
      obtain ⟨earlier, foundBefore, settled⟩ := same.earlier found
      refine ⟨earlier, foundBefore, ?_⟩
      rw [← earlier.seeks_settled, settled, later.seeks_settled, seeks]
  | @prepare call another newProposalId fresh calls _ =>
      rw [calls, PMap.set_apply] at found
      split at found
      · cases found
        have sameName : another = name := by
          simpa [Attempt.seeks, Attempt.remaining, Attempt.key?] using seeks
        subst sameName
        exact absurd rfl (starts call newProposalId)
      · exact ⟨later, found, seeks⟩
  | startPreparationTimer here calls _ => exact goesOn here calls id
  | reject here _ calls _ =>
      exact goesOn here calls (by simp [Attempt.seeks, Attempt.remaining])
  | exhaust here _ _ calls _ =>
      exact goesOn here calls (by simp [Attempt.seeks, Attempt.remaining])
  | choose here _ _ _ calls _ => exact goesOn here calls id
  | propose here calls _ => exact goesOn here calls id
  | startProposalTimer here calls _ => exact goesOn here calls id
  | «return» here _ calls _ =>
      exact goesOn here calls (by simp [Attempt.seeks, Attempt.remaining])
  | giveUp here calls _ =>
      exact goesOn here calls (by simp [Attempt.seeks, Attempt.remaining])

end GanglionPlexoMulticast

namespace Network

variable {N : Nat}

/-- If the action takes a call through its promise check, the lease manager of
the proposer still has an address. -/
def hasAddress (proposer : Fin N) (call : CallId) (network : Network N) :
    NetworkAction N → Bool
  | .act instance_ (.checkPromises other _) =>
      instance_ ≠ proposer || other ≠ call ||
        (network.ganglion proposer).registry.ipLeaseManager.availableIps ≠ ∅
  | _ => true

/-- The call has returned an address, and all instances store it. -/
def Settled (network : Network N) (proposer : Fin N) (call : CallId)
    (name : String) : Prop :=
  ∃ proposal multicastAddress,
    (network.ganglion proposer).calls call =
      some (.returned proposal multicastAddress) ∧
    ∀ instance_, (network.ganglion instance_).storedAddress name =
      some multicastAddress.packed

/-- Promises are never heard; an instance that is alone hears nothing. -/
structure Unheard (network : Network N) : Prop where
  inFlight : ∀ envelope ∈ network.inFlight, envelope.neuron ≠ .promise
  promises : ∀ instance_ name,
    (network.ganglion instance_).collectedPromises name = []
  leases : ∀ instance_,
    (network.ganglion instance_).registry.ipLeaseManager.Consistent
  nothing : N = 1 → network.inFlight = []
  rejections : N = 1 → ∀ instance_ name,
    (network.ganglion instance_).collectedRejections name = 0

theorem mem_broadcast {source : Fin N} {output : Output}
    {envelope : Envelope N} (member : envelope ∈ broadcast source output) :
    output = .transmit envelope.neuron envelope.message ∧
      envelope.target ≠ source := by
  unfold broadcast at member
  split at member
  · obtain ⟨target, inside, rfl⟩ := List.mem_map.mp member
    exact ⟨rfl, by simpa using inside⟩
  · cases member

theorem Unheard.step {host : Fin N → Host} {network next : Network N}
    {action : NetworkAction N} (unheard : network.Unheard)
    (taken : network.step byNeuron host action = some next) :
    next.Unheard := by
  cases move_of_step taken with
  | @lose envelope chosen =>
      refine ⟨?_, unheard.promises, unheard.leases, ?_, unheard.rejections⟩
      · intro other member
        exact unheard.inFlight other (List.mem_of_mem_erase member)
      · intro alone
        simp [unheard.nothing alone]
  | @take instance_ input before result ready resultTaken =>
      have sameGanglion := ready.ganglion_eq
      have stillWaiting : ∀ envelope ∈ before.inFlight,
          envelope ∈ network.inFlight := by
        cases ready with
        | own => exact fun _ => id
        | receive waiting => exact fun _ => List.mem_of_mem_erase
      refine ⟨?_, ?_, ?_, ?_, ?_⟩
      · intro envelope member
        rcases List.mem_append.mp member with old | new
        · exact unheard.inFlight envelope (stillWaiting envelope old)
        · obtain ⟨output, produced, sent⟩ := List.mem_flatMap.mp new
          obtain ⟨rfl, _⟩ := mem_broadcast sent
          have wired := GanglionPlexoMulticast.isWired_of_step resultTaken _
            produced
          simp only [Output.isWired, decide_eq_true_eq] at wired
          rw [wired]
          cases envelope.message with
          | promise body => simp [Message.sentOn]
          | _ => simp [Message.sentOn, Message.neuron]
      · intro other name
        by_cases same : other = instance_
        · subst same
          rw [record_ganglion_self]
          have silent : input.promise? name = none := by
            cases ready with
            | own => rfl
            | @receive envelope waiting =>
                have decoded : (byNeuron envelope.neuron
                    envelope.message).neuron = envelope.neuron :=
                  loads_neuron ..
                unfold Input.promise?
                cases message : byNeuron envelope.neuron envelope.message with
                | promise body =>
                    rw [message] at decoded
                    exact absurd decoded.symm (unheard.inFlight envelope waiting)
                | _ => rfl
          have sublist := GanglionPlexoMulticast.collectedPromises_of_step
            resultTaken name
          rw [silent, unheard.promises] at sublist
          simpa using sublist
        · rw [record_ganglion_other _ _ same, sameGanglion]
          exact unheard.promises other name
      · intro other
        by_cases same : other = instance_
        · subst same
          rw [record_ganglion_self]
          exact (GanglionPlexoMulticast.leases_step resultTaken).consistent
            (unheard.leases other)
        · rw [record_ganglion_other _ _ same, sameGanglion]
          exact unheard.leases other
      · intro alone
        subst alone
        have empty : before.inFlight = [] := by
          apply List.eq_nil_iff_forall_not_mem.mpr
          intro envelope member
          have waiting := stillWaiting envelope member
          rw [unheard.nothing rfl] at waiting
          cases waiting
        have unsent : result.2.flatMap (broadcast instance_) = [] := by
          apply List.eq_nil_iff_forall_not_mem.mpr
          intro envelope member
          obtain ⟨output, _, sent⟩ := List.mem_flatMap.mp member
          exact (mem_broadcast sent).2 (Subsingleton.elim _ _)
        simp only [record, empty, unsent, List.append_nil]
      · intro alone other name
        by_cases same : other = instance_
        · subst same
          rw [record_ganglion_self]
          cases ready with
          | own =>
              have fewer := GanglionPlexoMulticast.collectedRejections_of_act
                resultTaken name
              rw [unheard.rejections alone] at fewer
              exact Nat.le_zero.mp fewer
          | receive waiting =>
              rw [unheard.nothing alone] at waiting
              cases waiting
        · rw [record_ganglion_other _ _ same, sameGanglion]
          exact unheard.rejections alone other name

/-- The state of a call for a type that no other call of its instance is on its
way for. -/
structure Round (proposer : Fin N) (call : CallId) (name : String)
    (free : Prop) (network : Network N) : Prop where
  unheard : network.Unheard
  others : ∀ other attempt, other ≠ call →
    (network.ganglion proposer).calls other = some attempt →
    attempt.seeks name = false
  phase : ∃ attempt, (network.ganglion proposer).calls call = some attempt ∧
    attempt.InRound name (N = 1) free
      ((network.ganglion proposer).storedAddress name)

theorem hasAddress_iff {proposer : Fin N} {call : CallId}
    {network : Network N} {action : OwnAction} :
    network.hasAddress proposer call (.act proposer action) = true ↔
      ∀ popped, action = .checkPromises call popped →
        (network.ganglion proposer).registry.ipLeaseManager.availableIps ≠
          ∅ := by
  cases action with
  | checkPromises other popped =>
      by_cases same : other = call
      · simp [hasAddress, same]
      · simp [hasAddress, same]
  | _ => simp [hasAddress]

theorem Round.keep {proposer : Fin N} {call : CallId} {name : String}
    {free after : Prop} {network next : Network N}
    (round : network.Round proposer call name free) (unheard : next.Unheard)
    (same : next.ganglion proposer = network.ganglion proposer)
    (sameFree : after ↔ free) : next.Round proposer call name after := by
  refine ⟨unheard, ?_, ?_⟩
  · rw [same]
    exact round.others
  · rw [same, propext sameFree]
    exact round.phase

theorem Round.step {host : Fin N → Host} {proposer : Fin N} {call : CallId}
    {name : String} {free : Prop} {network next : Network N}
    {action : NetworkAction N}
    (round : network.Round proposer call name free)
    (peers : (network.ganglion proposer).numPeers = N - 1)
    (starts : action.prepares name = false)
    (taken : network.step byNeuron host action = some next) :
    next.Round proposer call name
      (free ∧ network.hasAddress proposer call action = true) := by
  have unheard := round.unheard.step taken
  have positive : 0 < N := proposer.pos
  cases move_of_step taken with
  | lose chosen =>
      subst chosen
      exact round.keep unheard rfl (by simp [hasAddress])
  | @take instance_ input before result ready resultTaken =>
      by_cases same : proposer = instance_
      · subst same
        obtain ⟨attempt, found, phase⟩ := round.phase
        have stays : ∀ other later, other ≠ call →
            result.1.calls other = some later →
            later.seeks name = false := by
          intro other later different foundAfter
          cases seeks : later.seeks name with
          | false => rfl
          | true =>
              have noStart : ∀ call newProposalId,
                  input ≠ .own (.prepare call name newProposalId) := by
                rintro another newProposalId rfl
                cases ready
                simp [NetworkAction.prepares] at starts
              obtain ⟨earlier, foundBefore, seeksBefore⟩ :=
                GanglionPlexoMulticast.seeks_of_step resultTaken noStart
                  foundAfter seeks
              rw [round.others other earlier different foundBefore]
                at seeksBefore
              cases seeksBefore
        refine ⟨unheard, by rw [record_ganglion_self]; exact stays, ?_⟩
        rw [record_ganglion_self]
        cases ready with
        | @own _ own =>
            apply GanglionPlexoMulticast.inRound_of_act resultTaken found phase
            · exact round.others
            · exact round.unheard.promises _ _
            · exact fun alone => round.unheard.rejections alone _ _
            · rw [peers]
              omega
            · exact round.unheard.leases _
            · rw [hasAddress_iff]
        | receive waiting =>
            have notAlone : ¬ N = 1 := by
              intro alone
              rw [round.unheard.nothing alone] at waiting
              cases waiting
            rw [and_iff_left (by simp [hasAddress])]
            cases Option.some.inj resultTaken
            exact GanglionPlexoMulticast.inRound_of_react _ notAlone found phase
      · apply round.keep unheard
        · rw [record_ganglion_other _ _ same, ready.ganglion_eq]
        · cases ready with
          | @own _ own =>
              cases own with
              | checkPromises => simp [hasAddress, Ne.symm same]
              | _ => simp [hasAddress]
          | receive waiting => simp [hasAddress]

end Network

namespace Uncontended

variable {N : Nat}

def begun (N : Nat) (proposer : Fin N) : Network N :=
  (Network.sample N).record proposer
    (((Network.sample N).ganglion proposer).sendPreparation 0
      "dev.plexo.Foo.json" 1)

def rest (proposer : Fin N) (popped : IPAddress) : List (NetworkAction N) :=
  [.act proposer (.startPreparationTimer 0),
    .act proposer (.checkPromises 0 popped),
    .act proposer (.sendProposal 0),
    .act proposer (.startProposalTimer 0),
    .act proposer (.checkApprovals 0)]

def Quiet (network : Network N) : Prop :=
  network.inFlight = [] ∧ ∀ instance_, (network.ganglion instance_).approving = []

instance (network : Network N) : Decidable (Quiet network) :=
  inferInstanceAs (Decidable (_ ∧ _))

/-- Timers expire only when everything has been delivered, and nothing is
lost. -/
def prompt (network : Network N) : NetworkAction N → Bool
  | .act _ (.checkPromises _ _) => Quiet network
  | .act _ (.checkApprovals _) => Quiet network
  | .lose _ => false
  | _ => true

end Uncontended

end Plexo
