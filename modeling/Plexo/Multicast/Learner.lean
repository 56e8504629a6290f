import Plexo.Multicast.Bookkeeping

/-!
# Learning a chosen address

An instance that did not propose a ballot counts the approvals for it, its own
included, and moves its synapse when they are more than half of its peers.  The
move looks the neuron up by name, and the map it looks in is filled by
`create_external_transmitter` alone: `update_transmitter`, which `adapt` goes
through, calls the private helpers and never registers the name.
-/

namespace Plexo

open PersistentMap Transition

namespace Registry

/-- `try_lease_address` accepts the address: it is free, or leased while no
known synapse is on it. -/
def Leasable (registry : Registry) (multicastAddress : IPAddress) : Prop :=
  registry.ipLeaseManager.ipLeaseMap multicastAddress = some false ∨
    registry.ipLeaseManager.ipLeaseMap multicastAddress = some true ∧
      registry.synapsesByAddress multicastAddress = none

/-- The synapse is on the address, or nothing keeps it from moving there. -/
def CanMoveTo (host : Host) (registry : Registry) (synapse : SynapseId)
    (multicastAddress : IPAddress) : Prop :=
  let object := registry.objects synapse
  object.multicastAddress = multicastAddress ∨
    registry.Leasable multicastAddress ∧ object.Closable host ∧
      multicastAddress.isMulticast = true ∧
      host.bind multicastAddress = true ∧
      registry.ipLeaseManager.ipLeaseMap object.multicastAddress = some true

def IsOn (registry : Registry) (name : String)
    (multicastAddress : IPAddress) : Prop :=
  ∃ synapse, registry.base.synapses name = some synapse ∧
    (registry.objects synapse).multicastAddress = multicastAddress

instance (registry : Registry) (multicastAddress : IPAddress) :
    Decidable (registry.Leasable multicastAddress) :=
  inferInstanceAs (Decidable (_ ∨ _))

instance (host : Host) (registry : Registry) (synapse : SynapseId)
    (multicastAddress : IPAddress) :
    Decidable (registry.CanMoveTo host synapse multicastAddress) :=
  inferInstanceAs (Decidable (_ ∨ _))

theorem tryLeaseAddress_cases {registry : Registry}
    {multicastAddress : IPAddress}
    (inside : (registry.ipLeaseManager.ipLeaseMap multicastAddress).isSome) :
    (registry.Leasable multicastAddress ∧
        ∃ manager, registry.tryLeaseAddress multicastAddress =
            (.ok (), { registry with ipLeaseManager := manager }) ∧
          ∀ other, other ≠ multicastAddress → manager.ipLeaseMap other =
            registry.ipLeaseManager.ipLeaseMap other) ∨
      ¬ registry.Leasable multicastAddress ∧
        registry.tryLeaseAddress multicastAddress =
          (.error (.ipLeaseExists multicastAddress), registry) := by
  unfold Leasable tryLeaseAddress
  obtain ⟨leased, flag⟩ := Option.isSome_iff_exists.mp inside
  cases leased with
  | false =>
      rw [IpLeaseManager.leaseAddress_free flag]
      refine .inl ⟨.inl flag, _, rfl, ?_⟩
      intro other different
      exact PMap.set_of_ne _ _ different
  | true =>
      rw [IpLeaseManager.leaseAddress_leased flag]
      cases known : registry.synapsesByAddress multicastAddress with
      | none =>
          exact .inl ⟨.inr ⟨flag, rfl⟩, registry.ipLeaseManager,
            by simp, fun _ _ => rfl⟩
      | some synapse => exact .inr ⟨by simp [flag], by simp⟩

theorem updateSynapseWithAddress_cases {host : Host} {registry : Registry}
    {name : String} {synapse : SynapseId} {multicastAddress : IPAddress}
    (found : registry.base.synapses name = some synapse)
    (inside : (registry.ipLeaseManager.ipLeaseMap multicastAddress).isSome) :
    (registry.CanMoveTo host synapse multicastAddress ∧
        ∃ after, registry.updateSynapseWithAddress host name multicastAddress =
            (.ok synapse, after) ∧
          after.base = registry.base ∧
          (after.objects synapse).multicastAddress = multicastAddress) ∨
      ¬ registry.CanMoveTo host synapse multicastAddress ∧
        ∃ error after, registry.updateSynapseWithAddress host name
          multicastAddress = (.error error, after) := by
  unfold updateSynapseWithAddress CanMoveTo
  simp only [found]
  by_cases there :
      (registry.objects synapse).multicastAddress = multicastAddress
  · refine .inl ⟨.inl there, registry, ?_, rfl, there⟩
    rw [if_pos there]
  rw [if_neg there]
  obtain ⟨leasable, manager, leased, others⟩ | ⟨notLeasable, refused⟩ :=
    tryLeaseAddress_cases inside
  · simp only [leased]
    have moved := SynapseZmqPlexoPubSubEPGM.update_ok_iff host
      (registry.objects synapse) multicastAddress
    have arrives := @SynapseZmqPlexoPubSubEPGM.update_multicastAddress host
      (registry.objects synapse) multicastAddress
    cases result : (registry.objects synapse).update host multicastAddress with
    | mk outcome object =>
        rw [result] at moved arrives
        cases outcome with
        | error error =>
            refine .inr ⟨?_, error, _, rfl⟩
            intro possible
            obtain ⟨_, closable, multicast, bound, _⟩ :=
              possible.resolve_left there
            cases moved.mpr ⟨closable, multicast, bound⟩
        | ok _ =>
            obtain ⟨closable, multicast, bound⟩ := moved.mp rfl
            simp only [moveSynapse, setObject]
            have flag := others _ there
            unfold IpLeaseManager.releaseAddress
            rw [flag]
            cases current : registry.ipLeaseManager.ipLeaseMap
                (registry.objects synapse).multicastAddress with
            | none => exact .inr ⟨by simp [there], _, _, rfl⟩
            | some leasedNow =>
                cases leasedNow with
                | false => exact .inr ⟨by simp [there], _, _, rfl⟩
                | true =>
                    refine .inl ⟨.inr ⟨leasable, closable, multicast, bound,
                      rfl⟩, _, rfl, rfl, ?_⟩
                    simpa using arrives rfl
  · simp only [refused]
    exact .inr ⟨by simp [there, notLeasable], _, _, rfl⟩

end Registry

/-- The input makes `_approval_reaction` count an approval for the key. -/
def Input.approves (key : String × Nat × Nat) (input : Input) : Bool :=
  input.approval?.any fun approval => approval.key = key

def approvalsIn (key : String × Nat × Nat) (steps : List (Observed × Input)) :
    Nat :=
  steps.countP fun entry => entry.2.approves key

/-- The approvals for the key do not exceed half of the peers with this step. -/
def Undecided (key : String × Nat × Nat) (entry : Observed × Input)
    (older : List (Observed × Input)) : Prop :=
  entry.2.approves key = true →
    2 * (approvalsIn key older + 1) ≤ entry.1.ganglion.numPeers

instance (key : String × Nat × Nat) (entry : Observed × Input)
    (older : List (Observed × Input)) : Decidable (Undecided key entry older) :=
  inferInstanceAs (Decidable (_ → _))

/-- The input is a call of `create_external_transmitter` for the name. -/
def Input.registers (name : String) : Input → Bool
  | .own (.createExternalTransmitter neuron _) => neuron.name = name
  | _ => false

namespace GanglionPlexoMulticast

theorem commitApproval_proposalApprovals (host : Host)
    (ganglion : GanglionPlexoMulticast) (approval : PlexoApproval)
    {key : String × Nat × Nat} (other : approval.key ≠ key) :
    (ganglion.commitApproval host approval).1.proposalApprovals key =
      ganglion.proposalApprovals key := by
  unfold commitApproval
  split
  · rfl
  · split
    · rfl
    · split
      · rfl
      · exact PMap.discard_of_ne _ other.symm

theorem approvalReaction_proposalApprovals_other (host : Host)
    (ganglion : GanglionPlexoMulticast) (approval : PlexoApproval)
    {key : String × Nat × Nat} (other : approval.key ≠ key) :
    (ganglion.approvalReaction host approval).1.proposalApprovals key =
      ganglion.proposalApprovals key := by
  have counted : (ganglion.countApproval approval.key).proposalApprovals key =
      ganglion.proposalApprovals key :=
    PMap.set_of_ne _ _ other.symm
  unfold approvalReaction
  dsimp only
  split
  · split
    · exact counted
    · rw [commitApproval_proposalApprovals host _ approval other, counted]
  · exact counted

theorem approvalReaction_below {host : Host} {ganglion : GanglionPlexoMulticast}
    {approval : PlexoApproval}
    (below : 2 * ganglion.newApprovalsNum approval.key ≤ ganglion.numPeers) :
    ganglion.approvalReaction host approval =
      (ganglion.countApproval approval.key, []) := by
  unfold approvalReaction
  dsimp only
  rw [if_neg (Nat.not_lt.mpr below)]

theorem approvalReaction_above {host : Host} {ganglion : GanglionPlexoMulticast}
    {approval : PlexoApproval}
    (above : ganglion.numPeers < 2 * ganglion.newApprovalsNum approval.key)
    (foreign : approval.instanceId ≠ ganglion.instanceId) :
    ganglion.approvalReaction host approval =
      (ganglion.countApproval approval.key).commitApproval host approval := by
  unfold approvalReaction
  dsimp only
  rw [if_pos above, if_neg foreign]

theorem step_proposalApprovals_other {host : Host}
    {ganglion : GanglionPlexoMulticast} {input : Input}
    {result : GanglionPlexoMulticast × List Output}
    {key : String × Nat × Nat}
    (taken : ganglion.step host input = some result)
    (other : input.approves key = false) :
    result.1.proposalApprovals key = ganglion.proposalApprovals key := by
  cases counts : input.approval? with
  | some approval =>
      obtain ⟨approving, rfl⟩ := step_of_approval taken counts
      have different : approval.key ≠ key := by
        simpa [Input.approves, counts] using other
      exact approvalReaction_proposalApprovals_other host _ approval different
  | none =>
      cases input with
      | receive message =>
          cases Option.some.inj taken
          cases message with
          | heartbeat body => rfl
          | preparation body =>
              simp only [react, preparationReaction]
              split
              · rfl
              · split <;> rfl
          | promise body =>
              simp only [react, promiseReaction]
              split <;> rfl
          | rejection body =>
              simp only [react, rejectionReaction]
              split <;> rfl
          | proposal body =>
              simp only [react, proposalReaction]
              split
              · rfl
              · split <;> rfl
          | approval body => cases counts
      | own action =>
          cases ownStep_of_act taken with
          | checkPromises found canPop =>
              unfold checkPromises
              dsimp only
              split
              · rfl
              · split <;> rfl
          | checkApprovals found =>
              unfold checkApprovals
              dsimp only
              split <;> rfl
          | approve pending => cases counts
          | _ => rfl

theorem step_proposalApprovals_below {host : Host}
    {ganglion : GanglionPlexoMulticast} {input : Input}
    {result : GanglionPlexoMulticast × List Output} {approval : PlexoApproval}
    (taken : ganglion.step host input = some result)
    (counts : input.approval? = some approval)
    (below : 2 * ganglion.newApprovalsNum approval.key ≤ ganglion.numPeers) :
    result.1.proposalApprovals approval.key =
      some (ganglion.newApprovalsNum approval.key) := by
  obtain ⟨approving, rfl⟩ := step_of_approval taken counts
  have counted := @approvalReaction_below host { ganglion with approving }
    approval below
  rw [counted]
  exact PMap.set_self _ _ _

/-- A commit ends without an exception, with the synapse on the address,
exactly when the name is registered and nothing keeps the synapse from moving. -/
theorem commitApproval_iff {host : Host} {ganglion : GanglionPlexoMulticast}
    {approval : PlexoApproval} {synapse : SynapseId}
    {multicastAddress : IPAddress}
    (found : ganglion.registry.base.synapses approval.typeName = some synapse)
    (carried : approval.multicastIp = some multicastAddress.packed)
    (inside : (ganglion.registry.ipLeaseManager.ipLeaseMap
      multicastAddress).isSome) :
    ((ganglion.commitApproval host approval).2 = [] ∧
        (ganglion.commitApproval host approval).1.registry.IsOn
          approval.typeName multicastAddress) ↔
      (ganglion.registry.base.nameNeurons approval.typeName).isSome ∧
        ganglion.registry.CanMoveTo host synapse multicastAddress := by
  unfold commitApproval GanglionExternalBase.getNeuronByName
  cases ganglion.registry.base.nameNeurons approval.typeName with
  | none => simp
  | some neuron =>
      simp only [carried, Option.bind_some, ipAddress_packed,
        Registry.createOrUpdateSynapseWithAddress, found, Option.isSome_some,
        true_and]
      obtain ⟨possible, after, moved, sameBase, arrived⟩ |
          ⟨impossible, error, after, refused⟩ :=
        @Registry.updateSynapseWithAddress_cases host _ _ _ _ found inside
      · simp only [moved, possible, iff_true]
        exact ⟨trivial, synapse, by rw [sameBase, found], arrived⟩
      · simp [refused, impossible]

theorem step_nameNeurons {host : Host} {ganglion : GanglionPlexoMulticast}
    {input : Input} {result : GanglionPlexoMulticast × List Output}
    (taken : ganglion.step host input = some result) (name : String) :
    (result.1.registry.base.nameNeurons name).isSome =
      (input.registers name ||
        (ganglion.registry.base.nameNeurons name).isSome) := by
  rcases follows_or_registers taken with
    ⟨follows, unregistered⟩ | ⟨neuron, synapse, rfl, registered⟩
  · have silent : input.registers name = false := by
      unfold Input.registers
      split
      · exact absurd rfl (unregistered _ _)
      · rfl
    rw [follows.names, silent, Bool.false_or]
  · simp [registered, Input.registers]

end GanglionPlexoMulticast

section Runs

variable {host : Host} {multicastCidr : IPNetwork} {instanceId numPeers : Nat}
  {filters : Filters} {steps : List (Observed × Input)} {observed : Observed}

/-- A name is registered in a run exactly by `create_external_transmitter`;
adapting a neuron does not do it. -/
theorem nameNeurons_of_run
    (path : Path (Observed.step host)
      ⟨.started host multicastCidr instanceId numPeers filters, []⟩ steps
      observed) (name : String) :
    (observed.ganglion.registry.base.nameNeurons name).isSome =
      steps.any fun entry => entry.2.registers name := by
  induction path with
  | refl => simp [GanglionPlexoMulticast.started_nameNeurons]
  | snoc _ taken induction =>
      obtain ⟨result, resultTaken, rfl⟩ := Observed.step_eq_some taken
      rw [List.any_cons, ← induction]
      exact GanglionPlexoMulticast.step_nameNeurons resultTaken name

theorem proposalApprovals_of_run {key : String × Nat × Nat}
    (path : Path (Observed.step host)
      ⟨.started host multicastCidr instanceId numPeers filters, []⟩ steps
      observed)
    (undecided : Everywhere (Undecided key) steps) :
    (observed.ganglion.proposalApprovals key).getD 0 =
      approvalsIn key steps := by
  induction path with
  | refl => simp [(GanglionPlexoMulticast.started_idle ..).approvals, approvalsIn]
  | @snoc steps middle finish input _ taken induction =>
      obtain ⟨result, resultTaken, rfl⟩ := Observed.step_eq_some taken
      have counted := induction undecided.2
      unfold approvalsIn at *
      rw [List.countP_cons]
      cases approves : input.approves key with
      | false =>
          rw [GanglionPlexoMulticast.step_proposalApprovals_other resultTaken
            approves, counted]
          simp
      | true =>
          obtain ⟨approval, counts, same⟩ :=
            (Option.any_eq_true _ _).mp approves
          obtain rfl : approval.key = key := by simpa using same
          have below := undecided.1 approves
          rw [approvalsIn, ← counted] at below
          rw [GanglionPlexoMulticast.step_proposalApprovals_below resultTaken
            counts below]
          simp [GanglionPlexoMulticast.newApprovalsNum, counted]

/-- When the approvals for the ballot of another instance first exceed half of
the peers, the commit ends without an exception and with the synapse on the
approved address exactly when a user has registered the name with
`create_external_transmitter` and nothing keeps the synapse from moving. -/
theorem learner_commits_iff {input : Input}
    {result : GanglionPlexoMulticast × List Output} {approval : PlexoApproval}
    {synapse : SynapseId} {multicastAddress : IPAddress}
    (path : Path (Observed.step host)
      ⟨.started host multicastCidr instanceId numPeers filters, []⟩ steps
      observed)
    (undecided : Everywhere (Undecided approval.key) steps)
    (counts : input.approval? = some approval)
    (decided : observed.ganglion.numPeers <
      2 * (approvalsIn approval.key steps + 1))
    (taken : observed.ganglion.step host input = some result)
    (foreign : approval.instanceId ≠ observed.ganglion.instanceId)
    (carried : approval.multicastIp = some multicastAddress.packed)
    (inside : multicastAddress ∈ multicastCidr)
    (found : observed.ganglion.registry.base.synapses approval.typeName =
      some synapse) :
    (result.2 = [] ∧
        result.1.registry.IsOn approval.typeName multicastAddress) ↔
      (steps.any fun entry => entry.2.registers approval.typeName) = true ∧
        observed.ganglion.registry.CanMoveTo host synapse multicastAddress := by
  obtain ⟨approving, rfl⟩ :=
    GanglionPlexoMulticast.step_of_approval taken counts
  have known : (observed.ganglion.registry.ipLeaseManager.ipLeaseMap
      multicastAddress).isSome := by
    rw [(Observed.leases_run path).sameNetwork]
    exact (IpLeaseManager.init_isSome multicastCidr multicastAddress).mpr inside
  have above : observed.ganglion.numPeers <
      2 * observed.ganglion.newApprovalsNum approval.key := by
    rw [← proposalApprovals_of_run path undecided] at decided
    exact decided
  have commits := @GanglionPlexoMulticast.approvalReaction_above host
    { observed.ganglion with approving } approval above foreign
  rw [commits, ← nameNeurons_of_run path]
  apply GanglionPlexoMulticast.commitApproval_iff
  · exact found
  · exact carried
  · exact known

end Runs

namespace Learner

def neuron : Neuron :=
  .init "Foo" plexoNamespace ⟨"JSONCodec", "json"⟩ none

def approved : IPAddress := .v4 239 0 0 40

def approval : PlexoApproval :=
  { instanceId := 11
    proposalId := 2
    typeName := "dev.plexo.Foo.json"
    multicastIp := some approved.packed }

/-- The instance adapts the neuron while it is alone, then `registration`
happens, then another instance joins with two more peers, prepares a ballot and
proposes an address, which the instance approves itself. -/
def run (registration : List OwnAction) : List Input :=
  let alone : List OwnAction :=
    [.prepare 0 "dev.plexo.Foo.json" 1, .startPreparationTimer 0,
      .checkPromises 0 (.v4 239 0 0 32), .sendProposal 0, .startProposalTimer 0,
      .checkApprovals 0, .createSynapse 0 neuron, .updateTransmitter neuron]
  (alone ++ registration ++ [OwnAction.countPeers 2]).map .own ++
    [.receive (.preparation ⟨11, 2, "dev.plexo.Foo.json"⟩),
      .receive (.proposal ⟨11, 2, "dev.plexo.Foo.json", some approved.packed⟩),
      .own (.approve approval)]

end Learner

theorem learner_commits_registeredRun :
    ∃ steps observed result, Path (Observed.step .permissive)
        ⟨.sample 10 0, []⟩ steps observed ∧
      observed.ganglion.step .permissive
        (.receive (.approval Learner.approval)) = some result ∧
      result.2 = [] ∧
      result.1.registry.IsOn "dev.plexo.Foo.json" Learner.approved := by
  obtain ⟨observed, path, facts⟩ := path_of_any
    (show (exec (Observed.step .permissive) ⟨.sample 10 0, []⟩
      (Learner.run [.createExternalTransmitter Learner.neuron 6])).any
        (fun observed => observed.ganglion.numPeers = 2 ∧
          observed.ganglion.instanceId = 10 ∧
          observed.ganglion.registry.base.synapses "dev.plexo.Foo.json" =
            some 6 ∧
          observed.ganglion.registry.CanMoveTo .permissive 6
            Learner.approved) = true by decide +kernel)
  simp only [decide_eq_true_eq] at facts
  obtain ⟨peers, own, found, possible⟩ := facts
  refine ⟨_, observed, _, path, rfl, ?_⟩
  have decided : observed.ganglion.numPeers <
      2 * (approvalsIn Learner.approval.key (visited (Observed.step .permissive)
        ⟨.sample 10 0, []⟩ [] (Learner.run
          [.createExternalTransmitter Learner.neuron 6])) + 1) := by
    rw [peers]
    decide +kernel
  have foreign : Learner.approval.instanceId ≠ observed.ganglion.instanceId := by
    rw [own]
    decide
  have counts : (Input.receive (.approval Learner.approval)).approval? =
      some Learner.approval := rfl
  exact (learner_commits_iff path (by decide +kernel) counts decided rfl foreign
    rfl (IPNetwork.mem_def.mpr (by decide +kernel)) found).mpr
      ⟨by decide +kernel, possible⟩

theorem not_learner_commits_adaptedRun :
    ¬ ∀ (host : Host) (multicastCidr : IPNetwork) (instanceId numPeers : Nat)
      (filters : Filters) (steps : List (Observed × Input))
      (observed : Observed) (input : Input)
      (result : GanglionPlexoMulticast × List Output)
      (approval : PlexoApproval) (synapse : SynapseId)
      (multicastAddress : IPAddress),
      (∀ address, host.bind address = true) →
      host.timeoutIsBuiltin = true →
      multicastAddress.isMulticast = true →
      Path (Observed.step host)
        ⟨.started host multicastCidr instanceId numPeers filters, []⟩ steps
        observed →
      Everywhere (Undecided approval.key) steps →
      input.approval? = some approval →
      observed.ganglion.numPeers < 2 * (approvalsIn approval.key steps + 1) →
      observed.ganglion.step host input = some result →
      approval.instanceId ≠ observed.ganglion.instanceId →
      approval.multicastIp = some multicastAddress.packed →
      multicastAddress ∈ multicastCidr →
      observed.ganglion.registry.base.synapses approval.typeName =
        some synapse →
      (observed.ganglion.registry.base.transmitters approval.typeName).map
        (·.synapse) = some synapse →
      (∀ other < observed.ganglion.registry.nextObject, other ≠ synapse →
        (observed.ganglion.registry.objects other).multicastAddress ≠
          multicastAddress) →
      result.2 = [] ∧
        result.1.registry.IsOn approval.typeName multicastAddress := by
  intro commits
  obtain ⟨observed, path, facts⟩ := path_of_any
    (show (exec (Observed.step .permissive) ⟨.sample 10 0, []⟩
      (Learner.run [])).any
        (fun observed => observed.ganglion.numPeers = 2 ∧
          observed.ganglion.instanceId = 10 ∧
          observed.ganglion.registry.base.synapses "dev.plexo.Foo.json" =
            some 6 ∧
          (observed.ganglion.registry.base.transmitters
            "dev.plexo.Foo.json").map (·.synapse) = some 6 ∧
          (∀ other < observed.ganglion.registry.nextObject, other ≠ 6 →
            (observed.ganglion.registry.objects other).multicastAddress ≠
              Learner.approved) ∧
          (observed.ganglion.approvalReaction .permissive
            Learner.approval).2 ≠ []) = true by decide +kernel)
  simp only [decide_eq_true_eq] at facts
  obtain ⟨peers, own, found, adapted, apart, raises⟩ := facts
  have decided : observed.ganglion.numPeers <
      2 * (approvalsIn Learner.approval.key (visited (Observed.step .permissive)
        ⟨.sample 10 0, []⟩ [] (Learner.run [])) + 1) := by
    rw [peers]
    decide +kernel
  have foreign : Learner.approval.instanceId ≠ observed.ganglion.instanceId := by
    rw [own]
    decide
  exact raises (commits .permissive .sample 10 0 {} _ observed
    (.receive (.approval Learner.approval)) _ Learner.approval 6
    Learner.approved (fun _ => rfl) rfl rfl path (by decide +kernel) rfl decided
    rfl foreign rfl (IPNetwork.mem_def.mpr (by decide +kernel)) found adapted
    apart).1

end Plexo
