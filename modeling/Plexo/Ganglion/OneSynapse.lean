import Plexo.Multicast.Creation

/-!
# One synapse for each name

The laws of the four classes of ganglia put together.
-/

namespace Plexo

open Transition

/-- The four classes of ganglia. -/
inductive GanglionKind where
  | simple (cls : SimpleClass) (filters : Filters)
  | ganglionPlexoMulticast (host : Host) (multicastCidr : IPNetwork)
      (instanceId : Nat) (filters : Filters)

namespace GanglionKind

def methods : GanglionKind → GanglionMethods
  | simple cls filters => cls.methods filters
  | ganglionPlexoMulticast host multicastCidr instanceId filters =>
      GanglionPlexoMulticast.methods host multicastCidr instanceId filters

theorem lawful (kind : GanglionKind) :
    ∃ legal, kind.methods.Lawful legal := by
  cases kind with
  | simple cls filters => exact ⟨_, cls.lawful filters⟩
  | ganglionPlexoMulticast host multicastCidr instanceId filters =>
      exact ⟨_, GanglionPlexoMulticast.lawful host multicastCidr instanceId
        filters⟩

end GanglionKind

/-- Whatever calls are made, and in whatever order their steps and the events
come: there is one synapse for each name, and it is never replaced. -/
theorem one_synapse_per_name (kind : GanglionKind)
    {steps : List (SynapseCalls kind.methods × SynapseCalls.Action kind.methods)}
    {finish : SynapseCalls kind.methods}
    (path : Path SynapseCalls.step (.init kind.methods) steps finish) :
    finish.OneSynapse ∧ ∀ entry ∈ steps, entry.1.Kept finish := by
  obtain ⟨legal, lawful⟩ := kind.lawful
  exact SynapseCalls.oneSynapse_of_lawful lawful path

namespace Overtaken

def neuron : Neuron := .init "Foo" plexoNamespace ⟨"JsonCodec", "json"⟩ none

def kind : GanglionKind := .ganglionPlexoMulticast .permissive .sample 10 {}

def approval : PlexoApproval :=
  ⟨20, 1, neuron.name, some (IPAddress.v4 239 0 0 40).packed⟩

def event (event : MulticastEvent) : SynapseCalls.Action kind.methods :=
  .other event

/-- A call of `get_synapse_by_name` is in the consensus when the approval comes
in, and a call of `react` is made before it goes on. -/
def run : List (SynapseCalls.Action kind.methods) :=
  [.getSynapseByName neuron.name (some neuron), .run 0 ((0, 1) : Nat × Nat),
    event (.updateNameNeurons neuron),
    event (.input (.receive (.approval approval))),
    .react neuron ([7] : List Nat), .run 1 ((1, 2) : Nat × Nat),
    .run 1 ((1, 2) : Nat × Nat),
    event (.input (.own (.startPreparationTimer 0))),
    event (.input (.own (.checkPromises 0 (.v4 239 0 0 32)))),
    event (.input (.own (.sendProposal 0))),
    event (.input (.own (.startProposalTimer 0))),
    event (.input (.own (.checkApprovals 0))),
    .run 0 ((1, 2) : Nat × Nat)]

end Overtaken

/-- Both calls get the synapse that the approval has created. -/
theorem one_synapse_per_name_overtaken :
    ∃ steps finish, Path SynapseCalls.step (.init Overtaken.kind.methods) steps
        finish ∧
      finish.returned = [(Overtaken.neuron.name, some 0),
        (Overtaken.neuron.name, some 0)] ∧
      finish.reacted.length = 1 ∧
      finish.OneSynapse ∧ ∀ entry ∈ steps, entry.1.Kept finish := by
  obtain ⟨finish, path, passed⟩ := path_of_any
    (show (exec SynapseCalls.step (.init Overtaken.kind.methods)
      Overtaken.run).any (fun finish =>
        finish.returned = [(Overtaken.neuron.name, some 0),
          (Overtaken.neuron.name, some 0)] ∧ finish.reacted.length = 1) = true by
      decide +kernel)
  simp only [decide_eq_true_eq] at passed
  exact ⟨_, finish, path, passed.1, passed.2, one_synapse_per_name _ path⟩

end Plexo
