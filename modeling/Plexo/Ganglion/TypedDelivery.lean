import Plexo.Ganglion.Messages
import Plexo.Library.Transition

/-!
# Typed delivery

A synapse is handed what a synapse for the same name has transmitted, over TCP
in every case.  Over multicast the name is not compared, so that this rests on
the subscription, which also lets longer names pass.
-/

namespace Plexo

open PersistentMap Transition

/-- A call of `transmit` of a synapse for a neuron. -/
structure Transmitted where
  neuron : Neuron
  data : EncodedData

/-- A call of `transduce` of a synapse for a neuron. -/
structure Handed where
  neuron : Neuron
  payload : Option ByteArray

/-- Everything that was handed on has been transmitted by a synapse of the same
name. -/
def Typed (sent : List Transmitted) (handed : List Handed) : Prop :=
  ∀ call ∈ handed, ∃ transmitted ∈ sent,
    transmitted.neuron.name = call.neuron.name ∧
      call.payload = some transmitted.data.payload

theorem Typed.sent {sent : List Transmitted} {handed : List Handed}
    (typed : Typed sent handed) (transmitted : Transmitted) :
    Typed (sent ++ [transmitted]) handed := by
  intro call member
  obtain ⟨before, isSent, same⟩ := typed call member
  exact ⟨before, List.mem_append_left _ isSent, same⟩

theorem Typed.handed {sent : List Transmitted} {handed : List Handed}
    (typed : Typed sent handed) {transmitted : Transmitted}
    (isSent : transmitted ∈ sent) {neuron : Neuron}
    (same : transmitted.neuron.name = neuron.name) :
    Typed sent (handed ++ [⟨neuron, some transmitted.data.payload⟩]) := by
  intro call member
  rcases List.mem_append.mp member with old | new
  · exact typed call old
  · rw [List.mem_singleton.mp new]
    exact ⟨transmitted, isSent, same, rfl⟩

namespace Ganglion

def NamesNeurons (ganglion : Ganglion) : Prop :=
  ∀ name neuron, ganglion.base.nameNeurons name = some neuron →
    neuron.name = name

theorem getSynapse_nameNeurons (ganglion : Ganglion) (neuron : Neuron) :
    (ganglion.getSynapse neuron).2.base.nameNeurons =
      ganglion.base.nameNeurons := by
  unfold getSynapse
  split <;> rfl

theorem NamesNeurons.updateTransmitter {ganglion : Ganglion}
    (named : ganglion.NamesNeurons) (neuron : Neuron) :
    (ganglion.updateTransmitter neuron).NamesNeurons := by
  intro name known found
  unfold Ganglion.updateTransmitter at found
  dsimp only at found
  split at found
  · simp only [GanglionExternalBase.updateNameNeurons,
      GanglionExternalBase.createTransmitterOnce_nameNeurons,
      getSynapse_nameNeurons] at found
    split at found
    · simp only [GanglionExternalBase.createTransmitterOnce_nameNeurons,
        getSynapse_nameNeurons] at found
      exact named _ _ found
    · rcases (PMap.set_eq_some_iff ..).mp found with ⟨rfl, rfl⟩ | ⟨_, before⟩
      · rfl
      · exact named _ _ before
  · simp only [GanglionExternalBase.updateTransmitter_nameNeurons,
      getSynapse_nameNeurons] at found
    exact named _ _ found

theorem NamesNeurons.adapt {ganglion : Ganglion}
    (named : ganglion.NamesNeurons) (neuron : Neuron)
    (reactants : List Reactant) (rawReactants : List RawReactant) :
    (ganglion.adapt neuron reactants rawReactants).NamesNeurons := by
  have same : ∀ before : Ganglion, before.NamesNeurons →
      (before.getSynapse neuron).2.NamesNeurons := by
    intro before known name other found
    rw [getSynapse_nameNeurons] at found
    exact known _ _ found
  unfold Ganglion.adapt
  split
  · exact named
  · apply NamesNeurons.updateTransmitter
    split
    · split
      · exact named
      · exact same _ named
    · apply same
      split
      · exact named
      · exact same _ named

theorem NamesNeurons.getSynapseByName {ganglion after : Ganglion}
    (named : ganglion.NamesNeurons) {name : String} {synapse : SynapseId}
    (result : ganglion.getSynapseByName name = .ok (after, synapse)) :
    after.NamesNeurons ∧ (after.objects synapse).neuron.name = name := by
  unfold Ganglion.getSynapseByName at result
  split at result
  · next known =>
      obtain ⟨⟩ := result
      exact ⟨named, (ganglion.connected.named known).2⟩
  · split at result
    · cases result
    · next neuron found =>
        obtain ⟨⟩ := result
        simp only [GanglionExternalBase.getNeuronByName] at found
        split at found
        · cases found
        · next known =>
            obtain ⟨⟩ := found
            have same := named _ _ known
            constructor
            · intro other value here
              rw [getSynapse_nameNeurons] at here
              exact named _ _ here
            · rw [← same]
              exact ((ganglion.getSynapse _).2.connected.named
                (ganglion.getSynapse_known _)).2

end Ganglion

structure TcpTransport (μ : Type) where
  message : Neuron → EncodedData → μ
  receive : Ganglion → μ → Received

def GanglionZmqTcpPair.transport (codec : PlexoMessageCodec) :
    TcpTransport ByteArray :=
  ⟨SynapseZmqBasic.message codec, receive codec⟩

def GanglionZmqTcpPubSub.transport : TcpTransport (List ByteArray) :=
  ⟨SynapseZmqBasicPub.message, receive⟩

/-- Any number of ganglia, which may all be connected. -/
structure TcpNetwork where
  ganglia : Nat → Ganglion
  sent : List Transmitted
  handed : List Handed

namespace TcpNetwork

inductive Action where
  | adapt (ganglion : Nat) (neuron : Neuron) (reactants : List Reactant)
    (rawReactants : List RawReactant)
  | transmit (ganglion : Nat) (synapse : SynapseId) (data : EncodedData)
  /-- A ganglion receives the message of a call of `transmit`, by its position. -/
  | receive (ganglion : Nat) (transmitted : Nat)

def init (filters : Nat → Filters) : TcpNetwork :=
  ⟨fun ganglion => .init (.external false) (filters ganglion), [], []⟩

variable {μ : Type}

def step (transport : TcpTransport μ) (network : TcpNetwork) :
    Action → Option TcpNetwork
  | .adapt ganglion neuron reactants rawReactants =>
      some
        { network with
          ganglia := Function.update network.ganglia ganglion
            ((network.ganglia ganglion).adapt neuron reactants rawReactants) }
  | .transmit ganglion synapse data =>
      if synapse < (network.ganglia ganglion).nextObject then
        some
          { network with
            sent := network.sent ++
              [⟨((network.ganglia ganglion).objects synapse).neuron, data⟩] }
      else
        none
  | .receive ganglion transmitted =>
      match network.sent[transmitted]? with
      | none => none
      | some ⟨neuron, data⟩ =>
          match transport.receive (network.ganglia ganglion)
              (transport.message neuron data) with
          | .error _ => some network
          | .ok (after, synapse, payload) =>
              some
                { network with
                  ganglia := Function.update network.ganglia ganglion after
                  handed := network.handed ++
                    [⟨(after.objects synapse).neuron, payload⟩] }

end TcpNetwork

/-- What is received of a message goes to a synapse for its name. -/
def TcpTransport.Demultiplexes {μ : Type} (transport : TcpTransport μ) : Prop :=
  ∀ {ganglion after : Ganglion} {neuron : Neuron} {data : EncodedData}
    {synapse : SynapseId} {payload : Option ByteArray},
    transport.receive ganglion (transport.message neuron data) =
      .ok (after, synapse, payload) →
    payload = some data.payload ∧
      ganglion.getSynapseByName neuron.name = .ok (after, synapse)

theorem GanglionZmqTcpPair.transport_demultiplexes {codec : PlexoMessageCodec}
    (faithful : codec.Faithful) : (transport codec).Demultiplexes := by
  intro ganglion after neuron data synapse payload received
  obtain ⟨typeName, name, decoded, text, lookup⟩ := receive_ok received
  have same := decoded.symm.trans (faithful _ _)
  obtain ⟨⟩ := same
  rw [decodeUtf8_topicBytes] at text
  obtain ⟨⟩ := text
  exact ⟨rfl, lookup⟩

theorem GanglionZmqTcpPubSub.transport_demultiplexes :
    transport.Demultiplexes := by
  intro ganglion after neuron data synapse payload received
  have found : receive ganglion (SynapseZmqBasicPub.message neuron data) =
      .ok (after, synapse, payload) := received
  obtain ⟨topic, frame, name, frames, isFrame, text, lookup⟩ :=
    receive_ok found
  obtain ⟨⟩ := frames
  rw [decodeUtf8_topicBytes] at text
  obtain ⟨⟩ := text
  exact ⟨isFrame, lookup⟩

namespace TcpNetwork

variable {μ : Type}

structure Sound (network : TcpNetwork) : Prop where
  named : ∀ ganglion, (network.ganglia ganglion).NamesNeurons
  typed : Typed network.sent network.handed

theorem sound_init (filters : Nat → Filters) : (init filters).Sound where
  named := by
    intro ganglion name neuron found
    cases found
  typed := by
    intro call member
    cases member

theorem named_update {network : TcpNetwork}
    (named : ∀ ganglion, (network.ganglia ganglion).NamesNeurons)
    (changed : Nat) {after : Ganglion} (isNamed : after.NamesNeurons)
    (ganglion : Nat) :
    (Function.update network.ganglia changed after ganglion).NamesNeurons := by
  by_cases same : ganglion = changed
  · subst same
    rw [Function.update_self]
    exact isNamed
  · rw [Function.update_of_ne same]
    exact named ganglion

theorem Sound.step {transport : TcpTransport μ} {network next : TcpNetwork}
    {action : Action} (sound : network.Sound)
    (demultiplexes : transport.Demultiplexes)
    (taken : network.step transport action = some next) : next.Sound := by
  cases action with
  | adapt ganglion neuron reactants rawReactants =>
      obtain ⟨⟩ := taken
      exact ⟨named_update sound.named ganglion
        ((sound.named ganglion).adapt neuron reactants rawReactants),
        sound.typed⟩
  | transmit ganglion synapse data =>
      simp only [TcpNetwork.step] at taken
      split at taken
      · obtain ⟨⟩ := taken
        exact ⟨sound.named, sound.typed.sent _⟩
      · cases taken
  | receive ganglion transmitted =>
      simp only [TcpNetwork.step] at taken
      split at taken
      · cases taken
      · next neuron data found =>
          split at taken
          · obtain ⟨⟩ := taken
            exact sound
          · next after synapse payload received =>
              obtain ⟨⟩ := taken
              obtain ⟨rfl, lookup⟩ := demultiplexes received
              obtain ⟨named, same⟩ :=
                (sound.named ganglion).getSynapseByName lookup
              exact ⟨named_update sound.named ganglion named,
                sound.typed.handed (List.mem_of_getElem? found) same.symm⟩

theorem typed_path {transport : TcpTransport μ}
    (demultiplexes : transport.Demultiplexes) {filters : Nat → Filters}
    {steps : List (TcpNetwork × Action)} {finish : TcpNetwork}
    (path : Path (step transport) (init filters) steps finish) :
    Typed finish.sent finish.handed := by
  have sound : finish.Sound := by
    apply path.always (sound_init filters)
    intro network action next sound taken
    exact sound.step demultiplexes taken
  exact sound.typed

end TcpNetwork

/-- A multicast synapse on an address and a port.  One that moves counts as one
for each of its addresses, since it gets new sockets. -/
structure MulticastEndpoint where
  neuron : Neuron
  multicastAddress : IPAddress
  port : Nat

/-- Both are on the same address and port. -/
def MulticastEndpoint.Reaches (sender receiver : MulticastEndpoint) : Prop :=
  sender.multicastAddress = receiver.multicastAddress ∧
    sender.port = receiver.port

instance (sender receiver : MulticastEndpoint) :
    Decidable (sender.Reaches receiver) :=
  inferInstanceAs (Decidable (_ ∧ _))

/-- No name is a proper prefix of another one on the same address and port. -/
def NamesApart {ι : Type} (endpoints : ι → MulticastEndpoint) : Prop :=
  ∀ sender receiver, (endpoints sender).Reaches (endpoints receiver) →
    (endpoints receiver).neuron.topicBytes.data.toList <+:
      (endpoints sender).neuron.topicBytes.data.toList →
    (endpoints sender).neuron.name = (endpoints receiver).neuron.name

structure MulticastNetwork (ι : Type) where
  reactants : ι → List ReactantId
  sent : List (ι × EncodedData)
  handed : List Handed

namespace MulticastNetwork

variable {ι : Type} [DecidableEq ι]

inductive Action (ι : Type) where
  /-- The first ones start the receive loop. -/
  | addReactants (synapse : ι) (reactants : List ReactantId)
  | transmit (synapse : ι) (data : EncodedData)
  /-- A synapse receives the message of a call of `transmit`, by its position. -/
  | receive (synapse : ι) (transmitted : Nat)

def init (ι : Type) : MulticastNetwork ι := ⟨fun _ => [], [], []⟩

def step (endpoints : ι → MulticastEndpoint) (network : MulticastNetwork ι) :
    Action ι → Option (MulticastNetwork ι)
  | .addReactants synapse reactants =>
      some
        { network with
          reactants := Function.update network.reactants synapse
            (addReactantsTo (network.reactants synapse) reactants) }
  | .transmit synapse data =>
      some { network with sent := network.sent ++ [(synapse, data)] }
  | .receive synapse transmitted =>
      match network.sent[transmitted]? with
      | none => none
      | some (sender, data) =>
          let receiver := (endpoints synapse).neuron
          let frames := SynapseZmqPlexoPubSubEPGM.message
            (endpoints sender).neuron data
          if (endpoints sender).Reaches (endpoints synapse) ∧
              SynapseZmqPlexoPubSubEPGM.subscribes receiver frames = true ∧
                (network.reactants synapse).length ≠ 0 then
            match SynapseZmqPlexoPubSubEPGM.secondFrame frames with
            | .error _ => some network
            | .ok payload =>
                some
                  { network with
                    handed := network.handed ++ [⟨receiver, some payload⟩] }
          else
            none

/-- The calls of `transmit`. -/
def transmitted (endpoints : ι → MulticastEndpoint)
    (network : MulticastNetwork ι) : List Transmitted :=
  network.sent.map fun call => ⟨(endpoints call.1).neuron, call.2⟩

theorem typed_step {endpoints : ι → MulticastEndpoint} (apart : NamesApart endpoints)
    {network next : MulticastNetwork ι} {action : Action ι}
    (typed : Typed (network.transmitted endpoints) network.handed)
    (taken : network.step endpoints action = some next) :
    Typed (next.transmitted endpoints) next.handed := by
  cases action with
  | addReactants _ _ =>
      obtain ⟨⟩ := taken
      exact typed
  | transmit synapse data =>
      obtain ⟨⟩ := taken
      simp only [transmitted, List.map_append, List.map_singleton]
      exact typed.sent _
  | receive synapse index =>
      simp only [step] at taken
      split at taken
      · cases taken
      · next sender data found =>
          split at taken
          · next passes =>
              obtain ⟨⟩ := taken
              obtain ⟨reaches, subscribes, _⟩ := passes
              have same := apart sender synapse reaches
                (List.isPrefixOf_iff_prefix.mp subscribes)
              have isSent : ⟨(endpoints sender).neuron, data⟩ ∈
                  network.transmitted endpoints :=
                List.mem_map.mpr ⟨_, List.mem_of_getElem? found, rfl⟩
              exact typed.handed isSent same
          · cases taken

theorem exists_received {endpoints : ι → MulticastEndpoint} {sender receiver : ι}
    (reaches : (endpoints sender).Reaches (endpoints receiver))
    (isPrefix : (endpoints receiver).neuron.topicBytes.data.toList <+:
      (endpoints sender).neuron.topicBytes.data.toList)
    (data : EncodedData) :
    ∃ steps finish, Path (step endpoints) (init ι) steps finish ∧
      finish.transmitted endpoints = [⟨(endpoints sender).neuron, data⟩] ∧
      finish.handed = [⟨(endpoints receiver).neuron, some data.payload⟩] := by
  have adds : (init ι).step endpoints (.addReactants receiver [0]) =
      some
        { init ι with reactants := Function.update (fun _ => []) receiver [0] } :=
    rfl
  have transmits : step endpoints
      { init ι with reactants := Function.update (fun _ => []) receiver [0] }
      (.transmit sender data) =
        some ⟨Function.update (fun _ => []) receiver [0], [(sender, data)],
          []⟩ := rfl
  have subscribes : SynapseZmqPlexoPubSubEPGM.subscribes
      (endpoints receiver).neuron (SynapseZmqPlexoPubSubEPGM.message
        (endpoints sender).neuron data) = true :=
    List.isPrefixOf_iff_prefix.mpr isPrefix
  have receives : step endpoints
      ⟨Function.update (fun _ => []) receiver [0], [(sender, data)], []⟩
      (.receive receiver 0) =
        some ⟨Function.update (fun _ => []) receiver [0], [(sender, data)],
          [⟨(endpoints receiver).neuron, some data.payload⟩]⟩ := by
    simp [step, reaches, SynapseZmqPlexoPubSubEPGM.message,
      SynapseZmqPlexoPubSubEPGM.secondFrame]
    exact subscribes
  exact ⟨_, _, ((Transition.Path.refl.snoc adds).snoc transmits).snoc receives, rfl, rfl⟩

/-- Delivery over multicast is typed exactly if no name is a proper prefix of
another one. -/
theorem typed_iff_apart (endpoints : ι → MulticastEndpoint) :
    (∀ steps finish, Path (step endpoints) (init ι) steps finish →
      Typed (finish.transmitted endpoints) finish.handed) ↔
        NamesApart endpoints := by
  constructor
  · intro typed sender receiver reaches isPrefix
    obtain ⟨steps, finish, path, sent, handed⟩ :=
      exists_received reaches isPrefix (.text "")
    have isTyped := typed steps finish path
    rw [sent, handed] at isTyped
    obtain ⟨transmitted, member, same, _⟩ :=
      isTyped _ (List.mem_singleton_self _)
    rw [List.mem_singleton.mp member] at same
    exact same
  · intro apart steps finish path
    apply path.always
    · intro call member
      cases member
    · intro network action next typed taken
      exact typed_step apart typed taken

end MulticastNetwork

/-- Every payload that a synapse is handed has been transmitted by a synapse of
the same name, over TCP always, over multicast exactly if no name is a proper
prefix of another one. -/
theorem typed_delivery {codec : PlexoMessageCodec} (faithful : codec.Faithful) :
    (∀ filters steps finish,
      Path (TcpNetwork.step (GanglionZmqTcpPair.transport codec))
          (TcpNetwork.init filters) steps finish →
        Typed finish.sent finish.handed) ∧
      (∀ filters steps finish,
        Path (TcpNetwork.step GanglionZmqTcpPubSub.transport)
            (TcpNetwork.init filters) steps finish →
          Typed finish.sent finish.handed) ∧
      ∀ (ι : Type) [DecidableEq ι] (endpoints : ι → MulticastEndpoint),
        (∀ steps finish,
          Path (MulticastNetwork.step endpoints) (MulticastNetwork.init ι) steps
              finish →
            Typed (finish.transmitted endpoints) finish.handed) ↔
          NamesApart endpoints := by
  refine ⟨?_, ?_, ?_⟩
  · intro filters steps finish path
    exact TcpNetwork.typed_path
      (GanglionZmqTcpPair.transport_demultiplexes faithful) path
  · intro filters steps finish path
    exact TcpNetwork.typed_path GanglionZmqTcpPubSub.transport_demultiplexes path
  · intro ι _ endpoints
    exact MulticastNetwork.typed_iff_apart endpoints

/-- One ganglion sends a text to another one. -/
theorem typed_delivery_text :
    ∃ finish : TcpNetwork,
      finish.handed.map Handed.payload = [some "text".toUTF8] ∧
        Typed finish.sent finish.handed := by
  obtain ⟨pair, _, _⟩ := typed_delivery PlexoMessageCodec.sample_faithful
  obtain ⟨finish, path, passed⟩ := @path_of_any _ _
    (TcpNetwork.step (GanglionZmqTcpPair.transport .sample))
    (TcpNetwork.init fun _ => {})
    [.adapt 0 ProtocolNeuron.heartbeat.toNeuron [] [],
      .adapt 1 ProtocolNeuron.heartbeat.toNeuron [] [],
      .transmit 0 0 (.text "text"), .receive 1 0]
    (fun finish => decide (finish.handed.map Handed.payload =
      [some "text".toUTF8])) (by decide +kernel)
  exact ⟨finish, of_decide_eq_true passed, pair _ _ finish path⟩

/-- A neuron of type `Type`, and one whose alias is the name that remains of the
first one. -/
def prefixEndpoints (longer : Bool) : MulticastEndpoint where
  neuron :=
    if longer then
      .init "Other" plexoNamespace ⟨"CapnpyCodec", "capnp"⟩ (some "Type.json")
    else
      .init "Type" plexoNamespace ⟨"JsonCodec", "json"⟩ none
  multicastAddress := .v4 224 0 0 1
  port := 5560

theorem not_typed_delivery_prefix :
    ¬ ∀ steps finish,
      Path (MulticastNetwork.step prefixEndpoints) (MulticastNetwork.init Bool)
          steps finish →
        Typed (finish.transmitted prefixEndpoints) finish.handed := by
  rw [MulticastNetwork.typed_iff_apart]
  intro apart
  have same := apart true false (by decide) (by decide +kernel)
  revert same
  decide +kernel

end Plexo
