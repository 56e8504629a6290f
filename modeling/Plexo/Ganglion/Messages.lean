import Plexo.Ganglion.Object

/-!
# Messages between processes

What the synapses of the three transports put on their sockets, and how the
three receive loops find the synapse that a message is for.
-/

namespace Plexo

open PersistentMap

/-- `EncodedType`. -/
inductive EncodedData where
  | text (data : String)
  | bytes (data : ByteArray)

/-- `data.encode("UTF-8") if isinstance(data, str) else data`. -/
def EncodedData.payload : EncodedData → ByteArray
  | .text data => data.toUTF8
  | .bytes data => data

/-- `topic_bytes` of a synapse for the neuron. -/
def Neuron.topicBytes (neuron : Neuron) : ByteArray := neuron.name.toUTF8

/-- A field that is missing in the message reads as `None`. -/
structure PlexoMessage where
  typeName : Option ByteArray
  payload : Option ByteArray

/-- `plexo_message_codec`; to decode includes to read the fields. -/
structure PlexoMessageCodec where
  encode : PlexoMessage → ByteArray
  decode : ByteArray → Except PlexoError PlexoMessage

/-- The codec decodes messages to what was encoded. -/
def PlexoMessageCodec.Faithful (codec : PlexoMessageCodec) : Prop :=
  ∀ typeName payload,
    codec.decode (codec.encode ⟨some typeName, some payload⟩) =
      .ok ⟨some typeName, some payload⟩

/-- A codec for tests, which writes the length of the type name, in units, in front
of it. -/
def PlexoMessageCodec.sample : PlexoMessageCodec where
  encode := fun message =>
    let typeName := (message.typeName.getD .empty).data.toList
    let payload := (message.payload.getD .empty).data.toList
    ⟨(List.replicate typeName.length 1 ++ 0 :: (typeName ++ payload)).toArray⟩
  decode := fun data =>
    let units := (data.data.toList.takeWhile (· == 1)).length
    let rest := data.data.toList.drop (units + 1)
    .ok ⟨some ⟨(rest.take units).toArray⟩, some ⟨(rest.drop units).toArray⟩⟩

theorem PlexoMessageCodec.sample_faithful : sample.Faithful := by
  intro typeName payload
  simp [sample, List.drop_append]

/-- `decode("UTF-8")`; `UnicodeDecodeError` is a `ValueError`. -/
def decodeUtf8 (bytes : ByteArray) : Except PlexoError String :=
  match String.fromUTF8? bytes with
  | none => .error .valueError
  | some text => .ok text

theorem decodeUtf8_topicBytes (neuron : Neuron) :
    decodeUtf8 neuron.topicBytes = .ok neuron.name := by
  have valid : neuron.name.toByteArray.IsValidUTF8 :=
    neuron.name.isValidUTF8
  simp only [decodeUtf8, Neuron.topicBytes, String.fromUTF8?,
    String.toUTF8_eq_toByteArray, dif_pos valid]
  rfl

/-- `get_synapse_by_name` without a neuron. -/
def Ganglion.getSynapseByName (ganglion : Ganglion) (name : String) :
    Except PlexoError (Ganglion × SynapseId) :=
  match ganglion.base.synapses name with
  | some synapse => .ok (ganglion, synapse)
  | none =>
      match ganglion.base.getNeuronByName name with
      | .error error => .error error
      | .ok neuron =>
          .ok ((ganglion.getSynapse neuron).2, (ganglion.getSynapse neuron).1)

/-- What a receive loop makes of a message before it calls `transduce`: the
synapse, and the argument. -/
abbrev Received := Except PlexoError (Ganglion × SynapseId × Option ByteArray)

/-- `transmit`. -/
def SynapseZmqBasic.message (codec : PlexoMessageCodec) (neuron : Neuron)
    (data : EncodedData) : ByteArray :=
  codec.encode ⟨some neuron.topicBytes, some data.payload⟩

/-- `_recv_loop`; `None` has no attribute `decode`. -/
def GanglionZmqTcpPair.receive (codec : PlexoMessageCodec) (ganglion : Ganglion)
    (data : ByteArray) : Received := do
  let message ← codec.decode data
  match message.typeName with
  | none => .error .attributeError
  | some typeName =>
      let name ← decodeUtf8 typeName
      let (ganglion, synapse) ← ganglion.getSynapseByName name
      return (ganglion, synapse, message.payload)

/-- `transmit`: the frames of one message. -/
def SynapseZmqBasicPub.message (neuron : Neuron) (data : EncodedData) :
    List ByteArray :=
  [neuron.topicBytes, data.payload]

/-- `_recv_loop`; unpacking anything but two frames is a `ValueError`. -/
def GanglionZmqTcpPubSub.receive (ganglion : Ganglion)
    (frames : List ByteArray) : Received := do
  match frames with
  | [name, data] =>
      let name ← decodeUtf8 name
      let (ganglion, synapse) ← ganglion.getSynapseByName name
      return (ganglion, synapse, some data)
  | _ => .error .valueError

namespace SynapseZmqPlexoPubSubEPGM

/-- `transmit`: the frames of one message. -/
def message (neuron : Neuron) (data : EncodedData) : List ByteArray :=
  [neuron.topicBytes, data.payload]

/-- A socket of type `SUB` lets messages pass whose first frame starts with what
it has subscribed to, which is the name of the neuron. -/
def subscribes (neuron : Neuron) (frames : List ByteArray) : Bool :=
  match frames with
  | [] => false
  | topic :: _ =>
      neuron.topicBytes.data.toList.isPrefixOf topic.data.toList

/-- `recv_multipart()[1]`; the topic is not looked at. -/
def secondFrame (frames : List ByteArray) : Except PlexoError ByteArray :=
  match frames[1]? with
  | none => .error .indexError
  | some data => .ok data

/-- `_recv_loop` of a synapse. -/
def receive (synapse : SynapseId) (ganglion : Ganglion)
    (frames : List ByteArray) : Received := do
  let data ← secondFrame frames
  return (ganglion, synapse, some data)

end SynapseZmqPlexoPubSubEPGM

theorem Ganglion.getSynapseByName_synapses {ganglion after : Ganglion}
    {name other : String} {found synapse : SynapseId}
    (result : ganglion.getSynapseByName name = .ok (after, found))
    (known : ganglion.base.synapses other = some synapse) :
    after.base.synapses other = some synapse := by
  unfold getSynapseByName at result
  split at result
  · obtain ⟨⟩ := result
    exact known
  · split at result
    · cases result
    · obtain ⟨⟩ := result
      exact getSynapse_synapses _ known

theorem Ganglion.getSynapseByName_known {ganglion : Ganglion} {name : String}
    {synapse : SynapseId} (known : ganglion.base.synapses name = some synapse) :
    ganglion.getSynapseByName name = .ok (ganglion, synapse) := by
  simp [getSynapseByName, known]

variable {ganglion : Ganglion} {neuron : Neuron} {synapse : SynapseId}

theorem GanglionZmqTcpPair.receive_known {codec : PlexoMessageCodec}
    {data : ByteArray} {payload : Option ByteArray}
    (decoded : codec.decode data = .ok ⟨some neuron.topicBytes, payload⟩)
    (known : ganglion.base.synapses neuron.name = some synapse) :
    receive codec ganglion data = .ok (ganglion, synapse, payload) := by
  simp only [receive, decoded, decodeUtf8_topicBytes,
    Ganglion.getSynapseByName_known known, bind, Except.bind, pure, Except.pure]

theorem GanglionZmqTcpPubSub.receive_known (data : ByteArray)
    (known : ganglion.base.synapses neuron.name = some synapse) :
    receive ganglion [neuron.topicBytes, data] =
      .ok (ganglion, synapse, some data) := by
  simp only [receive, decodeUtf8_topicBytes,
    Ganglion.getSynapseByName_known known, bind, Except.bind, pure, Except.pure]

theorem bind_eq_ok_iff {α β : Type} {first : Except PlexoError α}
    {rest : α → Except PlexoError β} {result : β} :
    first >>= rest = .ok result ↔
      ∃ value, first = .ok value ∧ rest value = .ok result := by
  cases first with
  | error error => simp [bind, Except.bind]
  | ok value => simp [bind, Except.bind]

theorem GanglionZmqTcpPair.receive_ok {codec : PlexoMessageCodec}
    {after : Ganglion} {data : ByteArray} {payload : Option ByteArray}
    (received : receive codec ganglion data = .ok (after, synapse, payload)) :
    ∃ typeName name, codec.decode data = .ok ⟨some typeName, payload⟩ ∧
      decodeUtf8 typeName = .ok name ∧
      ganglion.getSynapseByName name = .ok (after, synapse) := by
  obtain ⟨message, decoded, received⟩ := bind_eq_ok_iff.mp received
  split at received
  · cases received
  · next typeName named =>
      obtain ⟨name, text, received⟩ := bind_eq_ok_iff.mp received
      obtain ⟨found, lookup, received⟩ := bind_eq_ok_iff.mp received
      obtain ⟨⟩ := received
      refine ⟨typeName, name, ?_, text, lookup⟩
      rw [decoded, ← named]

theorem GanglionZmqTcpPubSub.receive_ok {after : Ganglion}
    {frames : List ByteArray} {payload : Option ByteArray}
    (received : receive ganglion frames = .ok (after, synapse, payload)) :
    ∃ topic data name, frames = [topic, data] ∧ payload = some data ∧
      decodeUtf8 topic = .ok name ∧
      ganglion.getSynapseByName name = .ok (after, synapse) := by
  unfold receive at received
  split at received
  · next topic data =>
      obtain ⟨name, text, received⟩ := bind_eq_ok_iff.mp received
      obtain ⟨found, lookup, received⟩ := bind_eq_ok_iff.mp received
      obtain ⟨⟩ := received
      exact ⟨topic, data, name, rfl, rfl, text, lookup⟩
  · cases received

theorem SynapseZmqPlexoPubSubEPGM.receive_ok {own : SynapseId} {after : Ganglion}
    {frames : List ByteArray} {payload : Option ByteArray}
    (received : receive own ganglion frames = .ok (after, synapse, payload)) :
    after = ganglion ∧ synapse = own := by
  obtain ⟨data, second, received⟩ := bind_eq_ok_iff.mp received
  obtain ⟨⟩ := received
  exact ⟨rfl, rfl⟩

end Plexo
