import Plexo.Multicast.Agreement

/-!
# Dedicated addresses

Consensus is run for each type on its own.  A fresh address comes from the
lease manager of the proposer, which knows of the addresses of its own synapses
and of those it has given out itself, and of no others.  An address that an
instance settles on for a type is traced back to the instance that picked it
for that type, so two types share an address only if it was picked twice.
-/

namespace Plexo

open PersistentMap Transition

def Message.address? : Message → Option (String × Packed)
  | .promise body => body.multicastIp.map (body.typeName, ·)
  | .proposal body => body.multicastIp.map (body.typeName, ·)
  | .approval body => body.multicastIp.map (body.typeName, ·)
  | _ => none

def Attempt.address? : Attempt → Option (String × IPAddress)
  | .proposing preparation _ multicastAddress =>
      some (preparation.typeName, multicastAddress)
  | .transmittingProposal proposal multicastAddress =>
      some (proposal.typeName, multicastAddress)
  | .awaitingApprovals proposal multicastAddress _ =>
      some (proposal.typeName, multicastAddress)
  | .returned proposal multicastAddress =>
      some (proposal.typeName, multicastAddress)
  | _ => none

theorem Attempt.address?_settled (attempt : Attempt) :
    attempt.settled.address? = attempt.address? := by
  cases attempt <;> rfl

def Output.chosen? : Output → Option (String × IPAddress)
  | .choose preparation multicastAddress =>
      some (preparation.typeName, multicastAddress)
  | _ => none

namespace Network

variable {N : Nat}

/-- Different types have different addresses. -/
def Dedicated (network : Network N) : Prop :=
  ∀ first ∈ network.returns, ∀ second ∈ network.returns,
    first.2 = second.2 → first.1 = second.1

instance (network : Network N) : Decidable network.Dedicated :=
  inferInstanceAs (Decidable (∀ first ∈ _, ∀ second ∈ _, _ → _))

def claims (network : Network N) : List (String × IPAddress) :=
  network.history.filterMap (·.2.chosen?)

/-- A call that takes a fresh address cannot get one that some instance has
settled on for another type: its own lease manager has them all leased. -/
def knowsClaims (network : Network N) : NetworkAction N → Bool
  | .act proposer (.checkPromises call _) =>
      let ganglion := network.ganglion proposer
      match ganglion.calls call with
      | some (.awaitingPromises preparation _) =>
          (newestPromise
            (ganglion.collectedPromises preparation.typeName)).isSome ||
            network.claims.all fun claim =>
              claim.1 = preparation.typeName ||
                claim.2 ∉ ganglion.registry.ipLeaseManager.availableIps
      | _ => true
  | _ => true

def Claimed (network : Network N) (name : String) (multicastIp : Packed) :
    Prop :=
  ∃ multicastAddress, (name, multicastAddress) ∈ network.claims ∧
    multicastAddress.packed = multicastIp

/-- All addresses in the system come from claims for the type they are used
for, and no address is claimed for two types. -/
structure Traced (network : Network N) : Prop where
  accounted : network.Accounted
  sent : ∀ source neuron message name multicastIp,
    (source, Output.transmit neuron message) ∈ network.history →
    message.address? = some (name, multicastIp) →
    network.Claimed name multicastIp
  stored : ∀ acceptor name entry multicastIp,
    (network.ganglion acceptor).proposals name = some entry →
    entry.multicastIp = some multicastIp → network.Claimed name multicastIp
  calls : ∀ proposer call attempt claim,
    (network.ganglion proposer).calls call = some attempt →
    attempt.address? = some claim → claim ∈ network.claims
  returned : ∀ claim ∈ network.returns, claim ∈ network.claims
  apart : ∀ name other multicastAddress,
    (name, multicastAddress) ∈ network.claims →
    (other, multicastAddress) ∈ network.claims → name = other

theorem Traced.dedicated {network : Network N} (traced : network.Traced) :
    network.Dedicated := by
  rintro ⟨name, multicastAddress⟩ first ⟨other, another⟩ second same
  obtain rfl : multicastAddress = another := same
  exact traced.apart name other multicastAddress (traced.returned _ first)
    (traced.returned _ second)

theorem Accounted.sent_of_collected {network : Network N}
    (accounted : network.Accounted) {target : Fin N} {name : String}
    {promise : PlexoPromise}
    (collected : promise ∈
      (network.ganglion target).collectedPromises name) :
    promise.typeName = name ∧ ∃ source neuron,
      (source, Output.transmit neuron (.promise promise)) ∈
        network.history := by
  have received : promise ∈ network.receivedPromises target name :=
    (accounted.promises target name).subset (List.mem_reverse.mpr collected)
  obtain ⟨envelope, delivered, found⟩ := List.mem_filterMap.mp received
  split at found
  · next here =>
      have isPromise : envelope.message = .promise promise ∧
          promise.typeName = name := by
        cases message : envelope.message with
        | promise body =>
            simp only [message, Message.promise?] at found
            split at found
            · next same =>
                cases found
                exact ⟨rfl, same⟩
            · cases found
        | _ => simp [message, Message.promise?] at found
      refine ⟨isPromise.2, ?_⟩
      have account := accounted.conserved target fun _ message =>
        message = .promise promise
      have addressed : 0 < network.addressedTo target
          fun _ message => message = .promise promise := by
        refine List.countP_pos_iff.mpr
          ⟨envelope, List.mem_append_right _ delivered, ?_⟩
        simp [Envelope.carries, here, isPromise.1]
      obtain ⟨⟨source, output⟩, member, sends⟩ :=
        List.countP_pos_iff.mp (lt_of_lt_of_le addressed account)
      cases output with
      | transmit neuron message =>
          have same : source ≠ target ∧ message = .promise promise := by
            simpa [Output.transmits] using sends
          obtain ⟨_, rfl⟩ := same
          exact ⟨source, neuron, member⟩
      | _ => simp [Output.transmits] at sends
  · cases found

theorem mem_claims_record {network : Network N} {instance_ : Fin N}
    {result : GanglionPlexoMulticast × List Output}
    {claim : String × IPAddress} :
    claim ∈ (network.record instance_ result).claims ↔
      (∃ output ∈ result.2, output.chosen? = some claim) ∨
        claim ∈ network.claims := by
  simp only [claims, List.mem_filterMap, mem_record_history]
  constructor
  · rintro ⟨⟨source, output⟩, ⟨_, new⟩ | old, chosen⟩
    · exact .inl ⟨output, new, chosen⟩
    · exact .inr ⟨_, old, chosen⟩
  · rintro (⟨output, new, chosen⟩ | ⟨entry, old, chosen⟩)
    · exact ⟨(instance_, output), .inl ⟨rfl, new⟩, chosen⟩
    · exact ⟨entry, .inr old, chosen⟩

theorem mem_returns_record {network : Network N} {instance_ : Fin N}
    {result : GanglionPlexoMulticast × List Output}
    {claim : String × IPAddress} :
    claim ∈ (network.record instance_ result).returns ↔
      (∃ output ∈ result.2, output.returned? = some claim) ∨
        claim ∈ network.returns := by
  simp only [returns, List.mem_filterMap, mem_record_history]
  constructor
  · rintro ⟨⟨source, output⟩, ⟨_, new⟩ | old, returned⟩
    · exact .inl ⟨output, new, returned⟩
    · exact .inr ⟨_, old, returned⟩
  · rintro (⟨output, new, returned⟩ | ⟨entry, old, returned⟩)
    · exact ⟨(instance_, output), .inl ⟨rfl, new⟩, returned⟩
    · exact ⟨entry, .inr old, returned⟩

/-- The acceptor side of a step spreads claimed addresses only. -/
theorem Traced.acceptor_step {network : Network N} (traced : network.Traced)
    {host : Host} {instance_ : Fin N} {input : Input}
    {result : GanglionPlexoMulticast × List Output}
    (taken : (network.ganglion instance_).step host input = some result)
    (received : ∀ message, input = .receive message → ∃ source neuron,
      (source, Output.transmit neuron message) ∈ network.history) :
    (∀ neuron message name multicastIp,
      Output.transmit neuron message ∈ result.2 →
      message.address? = some (name, multicastIp) →
      network.Claimed name multicastIp) ∧
    ∀ name entry multicastIp, result.1.proposals name = some entry →
      entry.multicastIp = some multicastIp →
      network.Claimed name multicastIp := by
  have write (written : PlexoProposal)
      (stores : result.1.proposals = (network.ganglion instance_).proposals.set
        written.typeName written)
      (claimed : ∀ multicastIp, written.multicastIp = some multicastIp →
        network.Claimed written.typeName multicastIp) :
      ∀ name entry multicastIp, result.1.proposals name = some entry →
        entry.multicastIp = some multicastIp →
        network.Claimed name multicastIp := by
    intro name entry multicastIp found address
    rw [stores, PMap.set_apply] at found
    split at found
    · next same =>
        cases found
        exact same ▸ claimed multicastIp address
    · exact traced.stored instance_ name entry multicastIp found address
  cases GanglionPlexoMulticast.acceptorMove_of_step taken with
  | idle unchanged quiet =>
      constructor
      · intro neuron message name multicastIp member address
        have silent := quiet _ member
        cases message <;> simp [Output.isQuiet, Message.address?] at silent address
      · rw [unchanged]
        exact traced.stored instance_
  | @promise preparation foreign newer stores outputs =>
      have current : ∀ multicastIp,
          ((network.ganglion instance_).proposals
            preparation.typeName).bind (·.multicastIp) = some multicastIp →
          network.Claimed preparation.typeName multicastIp := by
        intro multicastIp found
        obtain ⟨entry, stored, address⟩ := Option.bind_eq_some_iff.mp found
        exact traced.stored instance_ _ entry multicastIp stored address
      refine ⟨?_, write (promisedProposal _ preparation) stores current⟩
      intro neuron message name multicastIp member address
      rw [outputs, List.mem_singleton] at member
      cases member
      obtain ⟨bytes, found, same⟩ := Option.map_eq_some_iff.mp address
      cases same
      exact current _ found
  | @accept proposal stored found same stores outputs =>
      obtain ⟨source, neuron, sent⟩ := received _ rfl
      have claimed : ∀ multicastIp, proposal.multicastIp = some multicastIp →
          network.Claimed proposal.typeName multicastIp := by
        intro multicastIp address
        exact traced.sent source neuron _ _ _ sent
          (by simp [Message.address?, address])
      refine ⟨?_, write _ stores claimed⟩
      intro neuron message name multicastIp member address
      have isApproval : neuron = .approval ∧
          message = .approval (approvalFor proposal) := by
        simpa [outputs] using member
      obtain ⟨rfl, rfl⟩ := isApproval
      obtain ⟨bytes, found, same⟩ := Option.map_eq_some_iff.mp address
      cases same
      exact claimed _ found
  | @propose call preparation promises multicastAddress found stores outputs =>
      have claimed : ∀ multicastIp, (proposalFor preparation
          multicastAddress).multicastIp = some multicastIp →
          network.Claimed preparation.typeName multicastIp := by
        intro multicastIp address
        cases address
        exact ⟨multicastAddress, traced.calls instance_ call _ _ found rfl, rfl⟩
      refine ⟨?_, write _ stores claimed⟩
      intro neuron message name multicastIp member address
      have isProposal : neuron = .proposal ∧
          message = .proposal (proposalFor preparation multicastAddress) := by
        simpa [outputs] using member
      obtain ⟨rfl, rfl⟩ := isProposal
      cases address
      exact claimed _ rfl

/-- What a step does to the addresses that calls have settled on. -/
inductive ClaimMove (network : Network N) (instance_ : Fin N)
    (result : GanglionPlexoMulticast × List Output) : Prop where
  | keep :
      (∀ call attempt claim, result.1.calls call = some attempt →
        attempt.address? = some claim → claim ∈ network.claims) →
      (∀ output ∈ result.2, output.chosen? = none) →
      (∀ output ∈ result.2, ∀ claim, output.returned? = some claim →
        claim ∈ network.claims) →
      ClaimMove network instance_ result
  | choose {call : CallId} {preparation : PlexoPreparation}
      {multicastAddress : IPAddress} :
      result.1.calls = (network.ganglion instance_).calls.set call
        (.proposing preparation ((network.ganglion
          instance_).collectedPromises preparation.typeName)
            multicastAddress) →
      result.2 = [.passCheck preparation
          ((network.ganglion instance_).collectedPromises
            preparation.typeName) (network.ganglion instance_).numPeers,
        .choose preparation multicastAddress] →
      (∀ other, (other, multicastAddress) ∈ network.claims →
        other = preparation.typeName) →
      ClaimMove network instance_ result

theorem Traced.apart_of_choose {network : Network N} (traced : network.Traced)
    {proposer : Fin N} {call : CallId} {preparation : PlexoPreparation}
    {cancelled : Bool} {popped multicastAddress : IPAddress}
    (knows : network.knowsClaims
      (.act proposer (.checkPromises call popped)) = true)
    (found : (network.ganglion proposer).calls call =
      some (.awaitingPromises preparation cancelled))
    (canPop : (network.ganglion proposer).CanPop popped)
    (chosen : (GanglionPlexoMulticast.chooseAddress
      (network.ganglion proposer).registry
      ((network.ganglion proposer).collectedPromises preparation.typeName)
      popped).1 = .ok multicastAddress) {other : String}
    (claimed : (other, multicastAddress) ∈ network.claims) :
    other = preparation.typeName := by
  rcases GanglionPlexoMulticast.chooseAddress_ok chosen with
    ⟨newest, selected, address⟩ | ⟨nothing, fresh⟩
  · -- the address of a promise was claimed for the type before
    have inside := (newestPromise_some selected).1
    obtain ⟨sameName, source, neuron, sent⟩ :=
      traced.accounted.sent_of_collected inside
    obtain ⟨another, before, same⟩ := traced.sent source neuron _
      preparation.typeName multicastAddress.packed sent
      (by simp [Message.address?, address, sameName])
    obtain rfl : another = multicastAddress := packed_injective same
    exact traced.apart other preparation.typeName another claimed before
  · obtain ⟨available, samePopped⟩ := IpLeaseManager.getAddress_ok fresh
    subst samePopped
    have inPool := canPop.resolve_left available
    simp only [knowsClaims, found, nothing, Option.isSome_none,
      Bool.false_or, List.all_eq_true, Bool.or_eq_true,
      decide_eq_true_eq] at knows
    exact (knows _ claimed).resolve_right (not_not_intro inPool)

theorem Traced.claimMove_of_step {network before : Network N}
    (traced : network.Traced) {action : NetworkAction N} {host : Host}
    {instance_ : Fin N} {input : Input}
    {result : GanglionPlexoMulticast × List Output}
    (knows : network.knowsClaims action = true)
    (ready : Readied ownType network action instance_ input before)
    (taken : (network.ganglion instance_).step host input = some result) :
    ClaimMove network instance_ result := by
  have old := traced.calls instance_
  have goesOn {call : CallId} {earlier later : Attempt}
      (found : (network.ganglion instance_).calls call = some earlier)
      (calls : result.1.calls =
        (network.ganglion instance_).calls.set call later)
      (same : ∀ claim, later.address? = some claim →
        earlier.address? = some claim) :
      ∀ other attempt claim, result.1.calls other = some attempt →
        attempt.address? = some claim → claim ∈ network.claims := by
    intro other attempt claim foundAfter address
    rw [calls, PMap.set_apply] at foundAfter
    split at foundAfter
    · cases foundAfter
      exact old call earlier claim found (same claim address)
    · exact old other attempt claim foundAfter address
  cases GanglionPlexoMulticast.proposerMove_of_step taken with
  | idle same reactions =>
      refine .keep ?_ ?_ ?_
      · intro call attempt claim found address
        obtain ⟨earlier, foundBefore, settled⟩ := same.earlier found
        refine old call earlier claim foundBefore ?_
        rw [← earlier.address?_settled, settled, attempt.address?_settled,
          address]
      · intro output member
        have reaction := reactions output member
        cases output with
        | choose => simp [Output.isReaction] at reaction
        | _ => rfl
      · intro output member claim returned
        have reaction := reactions output member
        cases output with
        | «return» => simp [Output.isReaction] at reaction
        | _ => simp [Output.returned?] at returned
  | @prepare call name newProposalId none calls outputs =>
      refine .keep ?_ (by simp [outputs, Output.chosen?])
        (by simp [outputs, Output.returned?])
      intro other attempt claim found address
      rw [calls, PMap.set_apply] at found
      split at found
      · cases found
        cases address
      · exact old other attempt claim found address
  | startPreparationTimer found calls outputs =>
      exact .keep (goesOn found calls (by simp [Attempt.address?]))
        (by simp [outputs]) (by simp [outputs])
  | reject found rejected calls outputs =>
      exact .keep (goesOn found calls (by simp [Attempt.address?]))
        (by simp [outputs]) (by simp [outputs])
  | exhaust found passed failed calls outputs =>
      exact .keep (goesOn found calls (by simp [Attempt.address?]))
        (by simp [outputs, Output.chosen?])
        (by simp [outputs, Output.returned?])
  | choose found canPop passed chosen calls outputs =>
      refine .choose calls outputs ?_
      intro other claimed
      cases ready with
      | own => exact traced.apart_of_choose knows found canPop chosen claimed
  | propose found calls outputs =>
      exact .keep (goesOn found calls fun _ => id)
        (by simp [outputs, Output.chosen?])
        (by simp [outputs, Output.returned?])
  | startProposalTimer found calls outputs =>
      exact .keep (goesOn found calls fun _ => id) (by simp [outputs])
        (by simp [outputs])
  | «return» found enough calls outputs =>
      refine .keep (goesOn found calls fun _ => id)
        (by simp [outputs, Output.chosen?]) ?_
      intro output member claim returned
      rw [outputs, List.mem_singleton] at member
      subst member
      exact old _ _ claim found returned
  | giveUp found calls outputs =>
      exact .keep (goesOn found calls (by simp [Attempt.address?]))
        (by simp [outputs]) (by simp [outputs])

theorem Claimed.mono {network next : Network N} {name : String}
    {multicastIp : Packed} (claimed : network.Claimed name multicastIp)
    (kept : ∀ claim ∈ network.claims, claim ∈ next.claims) :
    next.Claimed name multicastIp := by
  obtain ⟨multicastAddress, inside, same⟩ := claimed
  exact ⟨multicastAddress, kept _ inside, same⟩

theorem Traced.record {network before : Network N} (traced : network.Traced)
    {host : Fin N → Host} {action : NetworkAction N} {instance_ : Fin N}
    {input : Input} {result : GanglionPlexoMulticast × List Output}
    (knows : network.knowsClaims action = true)
    (ready : Readied ownType network action instance_ input before)
    (taken : (network.ganglion instance_).step (host instance_) input =
      some result)
    (accounted : (before.record instance_ result).Accounted) :
    (before.record instance_ result).Traced := by
  have sameClaims : before.claims = network.claims := by
    unfold claims
    rw [ready.history_eq]
  have sameReturns : before.returns = network.returns := by
    unfold returns
    rw [ready.history_eq]
  have kept : ∀ claim ∈ network.claims,
      claim ∈ (before.record instance_ result).claims := by
    intro claim inside
    exact mem_claims_record.mpr (.inr (sameClaims ▸ inside))
  obtain ⟨sends, stores⟩ := traced.acceptor_step taken fun message received => by
    subst received
    obtain ⟨source, neuron, _, sent⟩ :=
      ready.sent_of_receive traced.accounted.conserved
    exact ⟨source, neuron, sent⟩
  have move := traced.claimMove_of_step knows ready taken
  refine ⟨accounted, ?_, ?_, ?_, ?_, ?_⟩
  · intro source neuron message name multicastIp member address
    rcases mem_record_history.mp member with ⟨_, new⟩ | old
    · exact (sends neuron message name multicastIp new address).mono kept
    · rw [ready.history_eq] at old
      exact (traced.sent source neuron message name multicastIp old
        address).mono kept
  · intro acceptor name entry multicastIp found address
    by_cases same : acceptor = instance_
    · subst same
      rw [record_ganglion_self] at found
      exact (stores name entry multicastIp found address).mono kept
    · rw [record_ganglion_other _ _ same, ready.ganglion_eq] at found
      exact (traced.stored acceptor name entry multicastIp found
        address).mono kept
  · intro proposer call attempt claim found address
    by_cases same : proposer = instance_
    · subst same
      rw [record_ganglion_self] at found
      cases move with
      | keep calls _ _ => exact kept _ (calls call attempt claim found address)
      | @choose chosenCall preparation multicastAddress calls outputs _ =>
          rw [calls, PMap.set_apply] at found
          split at found
          · cases found
            cases address
            exact mem_claims_record.mpr (.inl
              ⟨.choose preparation multicastAddress, by simp [outputs], rfl⟩)
          · exact kept _
              (traced.calls proposer call attempt claim found address)
    · rw [record_ganglion_other _ _ same, ready.ganglion_eq] at found
      exact kept _ (traced.calls proposer call attempt claim found address)
  · intro claim member
    rcases mem_returns_record.mp member with ⟨output, new, returned⟩ | old
    · cases move with
      | keep _ _ returns => exact kept _ (returns output new claim returned)
      | choose _ outputs _ =>
          rw [outputs] at new
          rcases List.mem_pair.mp new with rfl | rfl
          · cases returned
          · cases returned
    · exact kept _ (traced.returned claim (sameReturns ▸ old))
  · intro name other multicastAddress first second
    rw [mem_claims_record, sameClaims] at first second
    cases move with
    | keep _ nothing _ =>
        have old : ∀ claim, (∃ output ∈ result.2,
            output.chosen? = some claim) ∨ claim ∈ network.claims →
            claim ∈ network.claims := by
          rintro claim (⟨output, new, chosen⟩ | old)
          · rw [nothing output new] at chosen
            cases chosen
          · exact old
        exact traced.apart name other multicastAddress (old _ first)
          (old _ second)
    | @choose call preparation chosenAddress calls outputs unique =>
        have newOnly : ∀ claim, (∃ output ∈ result.2,
            output.chosen? = some claim) →
            claim = (preparation.typeName, chosenAddress) := by
          rintro claim ⟨output, new, chosen⟩
          rw [outputs] at new
          rcases List.mem_pair.mp new with rfl | rfl
          · cases chosen
          · cases chosen
            rfl
        rcases first with new | old
        · cases newOnly _ new
          rcases second with newToo | old
          · cases newOnly _ newToo
            rfl
          · exact (unique other old).symm
        · rcases second with new | oldToo
          · cases newOnly _ new
            exact unique name old
          · exact traced.apart name other multicastAddress old oldToo

theorem Traced.step {network next : Network N} (traced : network.Traced)
    {host : Fin N → Host} {action : NetworkAction N}
    (knows : network.knowsClaims action = true)
    (taken : network.step ownType host action = some next) :
    next.Traced := by
  have accounted := traced.accounted.step taken
  cases move_of_step taken with
  | lose chosen =>
      exact ⟨accounted, traced.sent, traced.stored, traced.calls,
        traced.returned, traced.apart⟩
  | take ready resultTaken =>
      exact traced.record knows ready resultTaken accounted

theorem traced_ofGanglia {ganglion : Fin N → GanglionPlexoMulticast}
    (idle : ∀ instance_, (ganglion instance_).Idle) :
    (ofGanglia ganglion).Traced := by
  refine ⟨accounted_ofGanglia idle, by simp [ofGanglia], ?_, ?_,
    by simp [ofGanglia, returns], by simp [ofGanglia, claims]⟩
  · intro acceptor name entry multicastIp found
    simp [ofGanglia, (idle acceptor).proposals] at found
  · intro proposer call attempt claim found
    simp [ofGanglia, (idle proposer).calls] at found

end Network

/-- In every run in which the lease manager of a call that takes a fresh
address has all addresses leased that are in use for other types, the addresses
that calls return are dedicated to one type each. -/
theorem dedicated_of_knowsClaims {N : Nat} {host : Fin N → Host}
    {ganglion : Fin N → GanglionPlexoMulticast}
    {steps : List (Network N × NetworkAction N)} {finish : Network N}
    (idle : ∀ instance_, (ganglion instance_).Idle)
    (path : Path (Network.step ownType host) (.ofGanglia ganglion) steps finish)
    (knows : Along (fun network action =>
      network.knowsClaims action = true) steps) : finish.Dedicated := by
  have traced : finish.Traced := by
    apply path.invariant knows
    · exact Network.traced_ofGanglia idle
    · intro network action next traced knowsHere taken
      exact traced.step knowsHere taken
  exact traced.dedicated

/-- The first instance gets an address for one type, then `second` gets one for
another type. -/
def twoTypesRun (second : Fin 3) (call : CallId) (popped : IPAddress) :
    List (NetworkAction 3) :=
  let foo : PlexoPreparation := ⟨10, 1, "dev.plexo.Foo.json"⟩
  let bar : PlexoPreparation := ⟨10 + second.val, 2, "dev.plexo.Bar.json"⟩
  soloRound Trio.first Trio.third 0 foo (promiseFor none foo) (.v4 239 0 0 32)
      (.v4 239 0 0 32) ++
    soloRound second Trio.third call bar (promiseFor none bar) popped popped

theorem dedicated_twoTypesRun :
    ∃ finish steps, Path (Network.step ownType fun _ => .permissive)
        (.sample 3) steps finish ∧
      finish.returns.length = 2 ∧ finish.Dedicated := by
  obtain ⟨finish, path, returned⟩ := path_of_any
    (show (exec (Network.step ownType fun _ => .permissive) (.sample 3)
      (twoTypesRun Trio.first 1 (.v4 239 0 0 33))).any (·.returns.length = 2) = true by
        decide +kernel)
  refine ⟨finish, _, path, by simpa using returned, ?_⟩
  exact dedicated_of_knowsClaims
    (fun _ => GanglionPlexoMulticast.started_idle ..) path (by decide +kernel)

theorem not_dedicated_twoTypesRun :
    ¬ ∀ (N : Nat) (host : Fin N → Host) (multicastCidr : IPNetwork)
      (instanceId : Fin N → Nat) (filters : Fin N → Filters)
      (steps : List (Network N × NetworkAction N)) (finish : Network N),
      2 ≤ N → Function.Injective instanceId →
      Path (Network.step ownType host)
        (.started host multicastCidr instanceId filters) steps finish →
      Along (fun network _ => network.CountsAll) steps →
      finish.Dedicated := by
  intro dedicated
  obtain ⟨finish, path, shared⟩ := path_of_any
    (show (exec (Network.step ownType fun _ => .permissive) (.sample 3)
      (twoTypesRun Trio.second 0 (.v4 239 0 0 32))).any (fun finish =>
        ¬ finish.Dedicated) = true by decide +kernel)
  have distinct : Function.Injective fun instance_ : Fin 3 =>
      10 + instance_.val := by decide
  simp only [decide_eq_true_eq] at shared
  exact shared (dedicated _ _ _ _ _ _ _ (by decide) distinct path
    (by decide +kernel))

end Plexo
