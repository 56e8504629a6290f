import Mathlib.Data.Set.Insert
import Plexo.Library.CallTable

/-!
# A bus with topics and subscribers

Whatever is published on an open topic is handed out, at some later time, to all
who have subscribed to the topic by then, and each of them receives it at a time
of its own.
-/

namespace PubSub

open Transition CallTable

/-- What has become of something published. -/
inductive Progress (ρ : Type) where
  | refused
  | accepted
  /-- It has been handed out, and `waiting` have not received it yet. -/
  | handedOut (waiting : Set ρ)

structure Post (τ ρ δ : Type) where
  topic : τ
  data : δ
  progress : Progress ρ

/-- What a subscriber has received. -/
structure Receipt (τ ρ δ : Type) where
  /-- The position in the list of posts. -/
  post : Nat
  topic : τ
  subscriber : ρ
  data : δ

structure Bus (τ ρ δ : Type) where
  subscribers : τ → Set ρ
  opened : Set τ
  posts : List (Post τ ρ δ)
  receipts : List (Receipt τ ρ δ)

inductive Event (τ ρ δ : Type) where
  | register (topic : τ) (subscribers : Set ρ) (opens : Bool)
  | publish (topic : τ) (data : δ)
  | handOut (post : Nat)
  | receive (post : Nat) (subscriber : ρ)

variable {τ ρ δ : Type}

namespace Event

def Subscribes (topic : τ) (subscriber : ρ) : Event τ ρ δ → Prop
  | .register other subscribers _ => other = topic ∧ subscriber ∈ subscribers
  | _ => False

def Opens (topic : τ) : Event τ ρ δ → Prop
  | .register other _ opens => other = topic ∧ opens = true
  | _ => False

end Event

namespace Bus

def empty : Bus τ ρ δ := ⟨fun _ => ∅, ∅, [], []⟩

def register (bus : Bus τ ρ δ) (topic : τ) (subscribers : Set ρ)
    (opens : Bool) : Bus τ ρ δ :=
  { bus with
    subscribers := fun other => { subscriber |
      subscriber ∈ bus.subscribers other ∨
        other = topic ∧ subscriber ∈ subscribers }
    opened := { other | other ∈ bus.opened ∨ other = topic ∧ opens = true } }

open Classical in
noncomputable def publish (bus : Bus τ ρ δ) (topic : τ) (data : δ) :
    Bus τ ρ δ :=
  { bus with
    posts := bus.posts ++
      [⟨topic, data, if topic ∈ bus.opened then .accepted else .refused⟩] }

def setPost (bus : Bus τ ρ δ) (post : Nat) (topic : τ) (data : δ)
    (waiting : Set ρ) : Bus τ ρ δ :=
  { bus with posts := bus.posts.set post ⟨topic, data, .handedOut waiting⟩ }

open Classical in
noncomputable def step (bus : Bus τ ρ δ) : Event τ ρ δ → Option (Bus τ ρ δ)
  | .register topic subscribers opens =>
      some (bus.register topic subscribers opens)
  | .publish topic data => some (bus.publish topic data)
  | .handOut post =>
      match bus.posts[post]? with
      | some ⟨topic, data, .accepted⟩ =>
          some (bus.setPost post topic data (bus.subscribers topic))
      | _ => none
  | .receive post subscriber =>
      match bus.posts[post]? with
      | some ⟨topic, data, .handedOut waiting⟩ =>
          if subscriber ∈ waiting then
            some
              { bus.setPost post topic data (waiting \ {subscriber}) with
                receipts :=
                  bus.receipts ++ [⟨post, topic, subscriber, data⟩] }
          else
            none
      | _ => none

/-- A step, and what it does. -/
inductive Move (bus : Bus τ ρ δ) : Event τ ρ δ → Bus τ ρ δ → Prop where
  | register (topic : τ) (subscribers : Set ρ) (opens : Bool) :
      Move bus (.register topic subscribers opens)
        (bus.register topic subscribers opens)
  | publish (topic : τ) (data : δ) :
      Move bus (.publish topic data) (bus.publish topic data)
  | handOut {post : Nat} {topic : τ} {data : δ} :
      bus.posts[post]? = some ⟨topic, data, .accepted⟩ →
      Move bus (.handOut post)
        (bus.setPost post topic data (bus.subscribers topic))
  | receive {post : Nat} {topic : τ} {data : δ} {waiting : Set ρ}
      {subscriber : ρ} :
      bus.posts[post]? = some ⟨topic, data, .handedOut waiting⟩ →
      subscriber ∈ waiting →
      Move bus (.receive post subscriber)
        { bus.setPost post topic data (waiting \ {subscriber}) with
          receipts := bus.receipts ++ [⟨post, topic, subscriber, data⟩] }

theorem move_of_step {bus next : Bus τ ρ δ} {event : Event τ ρ δ}
    (taken : bus.step event = some next) : Move bus event next := by
  cases event with
  | register topic subscribers opens =>
      exact Option.some.inj taken ▸ .register topic subscribers opens
  | publish topic data => exact Option.some.inj taken ▸ .publish topic data
  | handOut post =>
      simp only [step] at taken
      split at taken
      · next found => exact Option.some.inj taken ▸ .handOut found
      · cases taken
  | receive post subscriber =>
      simp only [step] at taken
      split at taken
      · next found =>
          split at taken
          · next waits => exact Option.some.inj taken ▸ .receive found waits
          · cases taken
      · cases taken

theorem mem_subscribers_move {bus next : Bus τ ρ δ} {event : Event τ ρ δ}
    (moved : Move bus event next) (topic : τ) (subscriber : ρ) :
    subscriber ∈ next.subscribers topic ↔
      subscriber ∈ bus.subscribers topic ∨
        event.Subscribes topic subscriber := by
  cases moved with
  | register other subscribers opens =>
      simp [register, Event.Subscribes, eq_comm]
  | publish _ _ => simp [publish, Event.Subscribes]
  | handOut _ => simp [setPost, Event.Subscribes]
  | receive _ _ => simp [setPost, Event.Subscribes]

theorem mem_opened_move {bus next : Bus τ ρ δ} {event : Event τ ρ δ}
    (moved : Move bus event next) (topic : τ) :
    topic ∈ next.opened ↔ topic ∈ bus.opened ∨ event.Opens topic := by
  cases moved with
  | register other subscribers opens =>
      simp [register, Event.Opens, eq_comm]
  | publish _ _ => simp [publish, Event.Opens]
  | handOut _ => simp [setPost, Event.Opens]
  | receive _ _ => simp [setPost, Event.Opens]

variable {start finish : Bus τ ρ δ} {steps : List (Bus τ ρ δ × Event τ ρ δ)}

/-- Whoever is subscribed has subscribed. -/
theorem mem_subscribers_path (path : Path step start steps finish) (topic : τ)
    (subscriber : ρ) :
    subscriber ∈ finish.subscribers topic ↔
      subscriber ∈ start.subscribers topic ∨
        ∃ entry ∈ steps, entry.2.Subscribes topic subscriber := by
  induction path with
  | refl => simp
  | snoc _ taken induction =>
      rw [mem_subscribers_move (move_of_step taken), induction, or_assoc]
      simp [or_comm]

theorem mem_opened_path (path : Path step start steps finish) (topic : τ) :
    topic ∈ finish.opened ↔
      topic ∈ start.opened ∨ ∃ entry ∈ steps, entry.2.Opens topic := by
  induction path with
  | refl => simp
  | snoc _ taken induction =>
      rw [mem_opened_move (move_of_step taken), induction, or_assoc]
      simp [or_comm]

variable [DecidableEq ρ]

/-- How often a subscriber has received a post. -/
def received (bus : Bus τ ρ δ) (post : Nat) (subscriber : ρ) :
    Nat :=
  bus.receipts.countP fun receipt =>
    receipt.post = post ∧ receipt.subscriber = subscriber

/-- What a post has led to; `early` had subscribed when it was published. -/
inductive Explains (bus : Bus τ ρ δ) (post : Nat) (topic : τ)
    (early : Set ρ) : Progress ρ → Prop where
  | refused : (∀ subscriber, bus.received post subscriber = 0) →
      Explains bus post topic early .refused
  | accepted : (∀ subscriber, bus.received post subscriber = 0) →
      Explains bus post topic early .accepted
  | handedOut {all waiting : Set ρ} :
      early ⊆ all → all ⊆ bus.subscribers topic → waiting ⊆ all →
      (∀ subscriber, subscriber ∈ all → subscriber ∉ waiting →
        bus.received post subscriber = 1) →
      (∀ subscriber, subscriber ∉ all ∨ subscriber ∈ waiting →
        bus.received post subscriber = 0) →
      Explains bus post topic early (.handedOut waiting)

theorem Explains.mono {before after : Bus τ ρ δ} {post : Nat} {topic : τ}
    {early : Set ρ} {progress : Progress ρ}
    (explains : before.Explains post topic early progress)
    (same : ∀ subscriber,
      after.received post subscriber = before.received post subscriber)
    (grows : before.subscribers topic ⊆ after.subscribers topic) :
    after.Explains post topic early progress := by
  cases explains with
  | refused none =>
      exact .refused fun subscriber => (same subscriber).trans (none subscriber)
  | accepted none =>
      exact .accepted fun subscriber => (same subscriber).trans (none subscriber)
  | handedOut first known inside once none =>
      apply Explains.handedOut first (known.trans grows) inside
      · intro subscriber inside absent
        rw [same]
        exact once subscriber inside absent
      · intro subscriber either
        rw [same]
        exact none subscriber either

/-- What holds of a post from when it is published. -/
structure Follows (bus : Bus τ ρ δ) (post : Nat) (topic : τ) (data : δ)
    (early : Set ρ) (admitted : Prop) : Prop where
  subscribed : early ⊆ bus.subscribers topic
  found : ∃ progress, bus.posts[post]? = some ⟨topic, data, progress⟩ ∧
    bus.Explains post topic early progress ∧
    (progress = .refused ↔ ¬ admitted)
  same : ∀ receipt ∈ bus.receipts, receipt.post = post →
    receipt.topic = topic ∧ receipt.data = data

def Bounded (bus : Bus τ ρ δ) : Prop :=
  ∀ receipt ∈ bus.receipts, receipt.post < bus.posts.length

omit [DecidableEq ρ] in
theorem bounded_move {bus next : Bus τ ρ δ} {event : Event τ ρ δ}
    (bounded : bus.Bounded) (moved : Move bus event next) : next.Bounded := by
  intro receipt member
  cases moved with
  | register _ _ _ => exact bounded receipt member
  | publish _ _ =>
      have bound := bounded receipt member
      simp only [publish, List.length_append]
      omega
  | handOut _ => simpa [setPost] using bounded receipt member
  | receive found _ =>
      simp only [setPost, List.length_set]
      rcases List.mem_append.mp member with old | new
      · exact bounded receipt old
      · rw [List.mem_singleton.mp new]
        exact (List.getElem?_eq_some_iff.mp found).1

theorem received_receive (bus : Bus τ ρ δ) (post other : Nat) (topic : τ)
    (data : δ) (waiting : Set ρ) (subscriber reader : ρ) :
    received { bus.setPost post topic data waiting with
        receipts := bus.receipts ++ [⟨post, topic, subscriber, data⟩] }
      other reader =
        bus.received other reader +
          if post = other ∧ subscriber = reader then 1 else 0 := by
  simp [received, List.countP_append, List.countP_cons]

omit [DecidableEq ρ] in
theorem posts_setPost (bus : Bus τ ρ δ) {post : Nat} {old : Post τ ρ δ}
    (found : bus.posts[post]? = some old) (topic : τ) (data : δ)
    (waiting : Set ρ) :
    (bus.setPost post topic data waiting).posts[post]? =
      some ⟨topic, data, .handedOut waiting⟩ :=
  List.getElem?_set_self (List.getElem?_eq_some_iff.mp found).1

variable {post : Nat} {topic : τ} {data : δ} {early : Set ρ} {admitted : Prop}

theorem Follows.move {bus next : Bus τ ρ δ} {event : Event τ ρ δ}
    (follows : bus.Follows post topic data early admitted)
    (moved : Move bus event next) :
    next.Follows post topic data early admitted := by
  have grows : bus.subscribers topic ⊆ next.subscribers topic :=
    fun subscriber member =>
      (mem_subscribers_move moved topic subscriber).mpr (.inl member)
  obtain ⟨progress, found, explains, refused⟩ := follows.found
  have bound := (List.getElem?_eq_some_iff.mp found).1
  refine ⟨follows.subscribed.trans grows, ?_, ?_⟩
  · cases moved with
    | register other subscribers opens =>
        exact ⟨progress, found, explains.mono (fun _ => rfl) grows, refused⟩
    | publish other data =>
        exact ⟨progress, (List.getElem?_append_left bound).trans found,
          explains.mono (fun _ => rfl) grows, refused⟩
    | @handOut index other value accepted =>
        by_cases same : index = post
        · subst same
          rw [accepted] at found
          obtain ⟨⟩ := found
          refine ⟨_, bus.posts_setPost accepted _ _ _, ?_,
            by simpa using refused⟩
          cases explains with
          | accepted none =>
              refine .handedOut follows.subscribed grows
                (fun _ member => member) ?_ ?_
              · exact fun subscriber inside absent => absurd inside absent
              · exact fun subscriber _ => none subscriber
        · exact ⟨progress, (List.getElem?_set_ne same).trans found,
            explains.mono (fun _ => rfl) grows, refused⟩
    | @receive index other value waiting subscriber handed waits =>
        by_cases same : index = post
        · subst same
          rw [handed] at found
          obtain ⟨⟩ := found
          refine ⟨_, bus.posts_setPost handed _ _ _, ?_, by simpa using refused⟩
          cases explains with
          | handedOut first known inside once none =>
              refine .handedOut first (known.trans grows)
                (Set.sdiff_subset.trans inside) ?_ ?_
              · intro reader member absent
                rw [received_receive]
                by_cases isReader : subscriber = reader
                · subst isReader
                  simp [none subscriber (.inr waits)]
                · have before := once reader member fun waitsToo =>
                    absent ⟨waitsToo, Ne.symm isReader⟩
                  simp [isReader, before]
              · intro reader either
                have different : subscriber ≠ reader := by
                  rintro rfl
                  rcases either with outside | ⟨_, apart⟩
                  · exact outside (inside waits)
                  · exact apart rfl
                have before := none reader (either.imp_right fun rest => rest.1)
                rw [received_receive]
                simp [different, before]
        · refine ⟨progress, (List.getElem?_set_ne same).trans found,
            explains.mono ?_ grows, refused⟩
          intro reader
          rw [received_receive]
          simp [same]
  · intro receipt member
    cases moved with
    | register _ _ _ => exact follows.same receipt member
    | publish _ _ => exact follows.same receipt member
    | handOut _ => exact follows.same receipt member
    | receive handed _ =>
        rcases List.mem_append.mp member with old | new
        · exact follows.same receipt old
        · rw [List.mem_singleton.mp new]
          rintro rfl
          rw [handed] at found
          obtain ⟨⟩ := found
          exact ⟨rfl, rfl⟩

theorem follows_publish {bus : Bus τ ρ δ} (bounded : bus.Bounded) (topic : τ)
    (data : δ) :
    (bus.publish topic data).Follows bus.posts.length topic data
      (bus.subscribers topic) (topic ∈ bus.opened) := by
  classical
  have none : ∀ subscriber,
      (bus.publish topic data).received bus.posts.length subscriber = 0 := by
    intro subscriber
    apply List.countP_eq_zero.mpr
    intro receipt member isPost
    have bound := bounded receipt member
    simp only [decide_eq_true_eq] at isPost
    omega
  have found : (bus.publish topic data).posts[bus.posts.length]? =
      some ⟨topic, data, if topic ∈ bus.opened then .accepted else .refused⟩ :=
    List.getElem?_concat_length
  refine ⟨fun _ member => member, ⟨_, found, ?_, ?_⟩, ?_⟩
  · split
    · exact .accepted none
    · exact .refused none
  · split
    · next opened => simp [opened]
    · next closed => simp [closed]
  · intro receipt member isPost
    have bound := bounded receipt member
    omega

def Ended (bus : Bus τ ρ δ) (post : Nat) : Prop :=
  ∃ topic data, bus.posts[post]? = some ⟨topic, data, .refused⟩ ∨
    bus.posts[post]? = some ⟨topic, data, .handedOut ∅⟩

def Refused (bus : Bus τ ρ δ) (post : Nat) : Prop :=
  ∃ topic data, bus.posts[post]? = some ⟨topic, data, .refused⟩

theorem Follows.refused_iff {bus : Bus τ ρ δ}
    (follows : bus.Follows post topic data early admitted) :
    bus.Refused post ↔ ¬ admitted := by
  obtain ⟨progress, found, _, refused⟩ := follows.found
  rw [← refused]
  constructor
  · intro isRefused
    obtain ⟨other, value, same⟩ := isRefused
    rw [found] at same
    exact congrArg Post.progress (Option.some.inj same)
  · intro isRefused
    exact ⟨topic, data, isRefused ▸ found⟩

theorem Follows.received_le_one {bus : Bus τ ρ δ}
    (follows : bus.Follows post topic data early admitted) (subscriber : ρ) :
    bus.received post subscriber ≤ 1 := by
  obtain ⟨progress, _, explains, _⟩ := follows.found
  cases explains with
  | refused none => simp [none]
  | accepted none => simp [none]
  | @handedOut all waiting _ _ _ once none =>
      by_cases gets : subscriber ∈ all ∧ subscriber ∉ waiting
      · rw [once subscriber gets.1 gets.2]
      · rw [none subscriber (by tauto)]
        exact Nat.zero_le 1

theorem Follows.subscribed_of_received {bus : Bus τ ρ δ}
    (follows : bus.Follows post topic data early admitted) {subscriber : ρ}
    (some : 0 < bus.received post subscriber) :
    subscriber ∈ bus.subscribers topic := by
  obtain ⟨progress, _, explains, _⟩ := follows.found
  cases explains with
  | refused none => simp [none] at some
  | accepted none => simp [none] at some
  | handedOut _ known _ _ none =>
      apply known
      by_contra outside
      simp [none subscriber (.inl outside)] at some

theorem Follows.received_eq_one {bus : Bus τ ρ δ}
    (follows : bus.Follows post topic data early admitted)
    (ended : bus.Ended post) (isAdmitted : admitted) {subscriber : ρ}
    (subscribed : subscriber ∈ early) : bus.received post subscriber = 1 := by
  obtain ⟨progress, found, explains, refused⟩ := follows.found
  obtain ⟨other, value, none | done⟩ := ended
  · exact absurd isAdmitted (follows.refused_iff.mp ⟨other, value, none⟩)
  · rw [found] at done
    obtain ⟨⟩ := done
    cases explains with
    | handedOut first _ _ once _ =>
        exact once subscriber (first subscribed) (Set.notMem_empty subscriber)

omit [DecidableEq ρ] in
theorem bounded_path (path : Path step start steps finish)
    (bounded : start.Bounded) : finish.Bounded := by
  apply path.always bounded
  intro bus event next bounded taken
  exact bounded_move bounded (move_of_step taken)

theorem Follows.path (path : Path step start steps finish)
    (follows : start.Follows post topic data early admitted) :
    finish.Follows post topic data early admitted := by
  apply path.always follows
  intro bus event next follows taken
  exact Follows.move follows (move_of_step taken)

/-- A post has been handed out to no one but `all`. -/
def Within (bus : Bus τ ρ δ) (post : Nat) (all : Set ρ) : Prop :=
  (∃ topic data waiting, waiting ⊆ all ∧
    bus.posts[post]? = some ⟨topic, data, .handedOut waiting⟩) ∧
  ∀ subscriber, subscriber ∉ all → bus.received post subscriber = 0

theorem Within.move {bus next : Bus τ ρ δ} {event : Event τ ρ δ} {all : Set ρ}
    (within : bus.Within post all) (moved : Move bus event next) :
    next.Within post all := by
  obtain ⟨⟨topic, data, waiting, inside, found⟩, none⟩ := within
  have bound := (List.getElem?_eq_some_iff.mp found).1
  cases moved with
  | register _ _ _ => exact ⟨⟨topic, data, waiting, inside, found⟩, none⟩
  | publish _ _ =>
      exact ⟨⟨topic, data, waiting, inside,
        (List.getElem?_append_left bound).trans found⟩, none⟩
  | @handOut index _ _ accepted =>
      have different : index ≠ post := by
        intro same
        rw [same, found] at accepted
        cases accepted
      exact ⟨⟨topic, data, waiting, inside,
        (List.getElem?_set_ne different).trans found⟩, none⟩
  | @receive index other value waits subscriber handed member =>
      by_cases same : index = post
      · subst same
        rw [found] at handed
        obtain ⟨⟩ := handed
        refine ⟨⟨topic, data, _, Set.sdiff_subset.trans inside,
          bus.posts_setPost found _ _ _⟩, ?_⟩
        intro reader outside
        have different : subscriber ≠ reader := by
          intro equal
          exact outside (equal ▸ inside member)
        rw [received_receive, none reader outside]
        simp [different]
      · refine ⟨⟨topic, data, waiting, inside,
          (List.getElem?_set_ne same).trans found⟩, ?_⟩
        intro reader outside
        rw [received_receive, none reader outside]
        simp [same]

omit [DecidableEq ρ] in
theorem exists_handOut (path : Path step start steps finish)
    (accepted : start.posts[post]? = some ⟨topic, data, .accepted⟩) :
    finish.posts[post]? = some ⟨topic, data, .accepted⟩ ∨
      ∃ late state soon, steps = late ++ (state, .handOut post) :: soon ∧
        Path step start soon state ∧
        state.posts[post]? = some ⟨topic, data, .accepted⟩ ∧
        Path step (state.setPost post topic data (state.subscribers topic))
          late finish := by
  induction path with
  | refl => exact .inl accepted
  | @snoc steps middle finish event earlier taken induction =>
      rcases induction with still | handed
      · have bound := (List.getElem?_eq_some_iff.mp still).1
        cases move_of_step taken with
        | register _ _ _ => exact .inl still
        | publish _ _ =>
            exact .inl ((List.getElem?_append_left bound).trans still)
        | @handOut index other value found =>
            by_cases same : index = post
            · subst same
              rw [still] at found
              obtain ⟨⟩ := found
              exact .inr ⟨[], middle, steps, rfl, earlier, still, .refl⟩
            · exact .inl ((List.getElem?_set_ne same).trans still)
        | @receive index other value waiting subscriber found waits =>
            have different : index ≠ post := by
              intro same
              rw [same, still] at found
              cases found
            exact .inl ((List.getElem?_set_ne different).trans still)
      · obtain ⟨late, state, soon, rfl, before, found, after⟩ := handed
        exact .inr ⟨(middle, event) :: late, state, soon, rfl, before, found,
          .snoc after taken⟩

/-- Exactly the subscribers at the time when a post is handed out receive it. -/
theorem received_exactly (path : Path step start steps finish)
    (follows : start.Follows post topic data early admitted)
    (accepted : start.posts[post]? = some ⟨topic, data, .accepted⟩)
    (ended : finish.Ended post) :
    ∃ late state soon, steps = late ++ (state, .handOut post) :: soon ∧
      Path step start soon state ∧
      ∀ subscriber,
        (subscriber ∈ state.subscribers topic →
          finish.received post subscriber = 1) ∧
        (subscriber ∉ state.subscribers topic →
          finish.received post subscriber = 0) := by
  rcases exists_handOut path accepted with still | handed
  · obtain ⟨other, value, none | done⟩ := ended
    · rw [still] at none
      cases none
    · rw [still] at done
      cases done
  · obtain ⟨late, state, soon, split, before, found, after⟩ := handed
    have noneYet : ∀ subscriber, state.received post subscriber = 0 := by
      obtain ⟨progress, same, explains, _⟩ := (follows.path before).found
      rw [found] at same
      obtain ⟨⟩ := same
      cases explains with
      | accepted none => exact none
    have posted := state.posts_setPost found topic data (state.subscribers topic)
    have handed : (state.setPost post topic data
        (state.subscribers topic)).Follows post topic data
          (state.subscribers topic) True := by
      refine ⟨fun _ member => member, ⟨_, posted, ?_, by simp⟩, ?_⟩
      · apply Explains.handedOut (fun _ member => member)
          (fun _ member => member) (fun _ member => member)
        · exact fun subscriber inside absent => absurd inside absent
        · exact fun subscriber _ => noneYet subscriber
      · exact (follows.path before).same
    have within : (state.setPost post topic data
        (state.subscribers topic)).Within post (state.subscribers topic) :=
      ⟨⟨topic, data, _, fun _ member => member, posted⟩,
        fun subscriber _ => noneYet subscriber⟩
    have inside : finish.Within post (state.subscribers topic) := by
      apply after.always within
      intro bus event next within taken
      exact within.move (move_of_step taken)
    refine ⟨late, state, soon, split, before, fun subscriber => ⟨?_, ?_⟩⟩
    · exact (handed.path after).received_eq_one ended trivial
    · exact inside.2 subscriber

end Bus

theorem countP_drop_set {α : Type} {list : List α} {index : Nat} {old new : α}
    (found : list[index]? = some old) (test : α → Bool) (first : Nat) :
    ((list.set index new).drop first).countP test +
        (if first ≤ index ∧ test old then 1 else 0) =
      (list.drop first).countP test +
        (if first ≤ index ∧ test new then 1 else 0) := by
  rw [List.drop_set]
  by_cases early : index < first
  · simp [early, Nat.not_le.mpr early]
  · have late := Nat.not_lt.mp early
    have inside : (list.drop first)[index - first]? = some old := by
      rw [List.getElem?_drop, Nat.add_sub_cancel' late]
      exact found
    obtain ⟨before, after, split, replaced⟩ := exists_around inside
    rw [if_neg early, replaced, split]
    simp only [List.countP_append, List.countP_cons, late, true_and]
    omega

namespace Progress

/-- A subscriber of the topic has yet to receive the post. -/
def Owes (subscriber : ρ) : Progress ρ → Prop
  | .refused => False
  | .accepted => True
  | .handedOut waiting => subscriber ∈ waiting

end Progress

open Classical in
noncomputable def Post.owes (topic : τ) (subscriber : ρ) (post : Post τ ρ δ) :
    Bool :=
  post.topic = topic ∧ post.progress.Owes subscriber

theorem Post.owes_iff {topic : τ} {subscriber : ρ} {post : Post τ ρ δ} :
    post.owes topic subscriber = true ↔
      post.topic = topic ∧ post.progress.Owes subscriber := by
  classical
  exact decide_eq_true_iff

def Event.publishes [DecidableEq τ] (topic : τ) : Event τ ρ δ → Bool
  | .publish other _ => other = topic
  | _ => false

namespace Bus

variable [DecidableEq τ] [DecidableEq ρ]

/-- How often a subscriber has received something on a topic, out of the posts
from `first` on. -/
def receivedFrom (bus : Bus τ ρ δ) (first : Nat) (topic : τ) (subscriber : ρ) :
    Nat :=
  bus.receipts.countP fun receipt => first ≤ receipt.post ∧
    receipt.topic = topic ∧ receipt.subscriber = subscriber

/-- How often it will still do so. -/
noncomputable def owed (bus : Bus τ ρ δ) (first : Nat) (topic : τ)
    (subscriber : ρ) : Nat :=
  (bus.posts.drop first).countP (Post.owes topic subscriber)

variable {first : Nat} {topic : τ} {subscriber : ρ}

theorem balance_move {bus next : Bus τ ρ δ} {event : Event τ ρ δ}
    (moved : Move bus event next)
    (subscribed : subscriber ∈ bus.subscribers topic)
    (opened : topic ∈ bus.opened) (long : first ≤ bus.posts.length) :
    next.receivedFrom first topic subscriber +
        next.owed first topic subscriber =
      bus.receivedFrom first topic subscriber +
        bus.owed first topic subscriber +
          if event.publishes topic then 1 else 0 := by
  classical
  cases moved with
  | register _ _ _ => simp [Event.publishes, receivedFrom, owed, register]
  | publish other data =>
      have owes : Post.owes topic subscriber
          (⟨other, data, if other ∈ bus.opened then .accepted else .refused⟩ :
            Post τ ρ δ) = decide (other = topic) := by
        by_cases same : other = topic
        · subst same
          simp [Post.owes, opened, Progress.Owes]
        · simp [Post.owes, same]
      simp only [receivedFrom, owed, publish, Event.publishes,
        List.drop_append_of_le_length long, List.countP_append,
        List.countP_singleton, owes]
      by_cases same : other = topic
      · simp only [same, decide_true, if_true]
        omega
      · simp only [same, decide_false, Bool.false_eq_true, if_false]
        omega
  | @handOut post other data accepted =>
      have owes : Post.owes topic subscriber
          (⟨other, data, .handedOut (bus.subscribers other)⟩ : Post τ ρ δ) =
          Post.owes topic subscriber ⟨other, data, .accepted⟩ := by
        by_cases same : other = topic
        · subst same
          simp [Post.owes, Progress.Owes, subscribed]
        · simp [Post.owes, same]
      have counted := @countP_drop_set _ _ _ _
        ⟨other, data, .handedOut (bus.subscribers other)⟩ accepted
        (Post.owes topic subscriber) first
      rw [owes] at counted
      simp only [receivedFrom, owed, setPost, Event.publishes,
        Bool.false_eq_true, if_false]
      omega
  | @receive post other data waiting reader handed waits =>
      have counted := @countP_drop_set _ _ _ _
        ⟨other, data, .handedOut (waiting \ {reader})⟩ handed
        (Post.owes topic subscriber) first
      simp only [receivedFrom, owed, setPost, Event.publishes,
        Bool.false_eq_true, if_false, List.countP_append,
        List.countP_singleton, decide_eq_true_eq]
      by_cases gets : other = topic ∧ reader = subscriber
      · obtain ⟨rfl, rfl⟩ := gets
        have before : Post.owes other reader
            (⟨other, data, .handedOut waiting⟩ : Post τ ρ δ) = true :=
          Post.owes_iff.mpr ⟨rfl, waits⟩
        have after : Post.owes other reader
            (⟨other, data, .handedOut (waiting \ {reader})⟩ :
              Post τ ρ δ) = false := by
          simp [Post.owes, Progress.Owes]
        simp only [before, after, and_true, Bool.false_eq_true, and_false,
          if_false] at counted ⊢
        omega
      · have owes : Post.owes topic subscriber
            (⟨other, data, .handedOut (waiting \ {reader})⟩ : Post τ ρ δ) =
            Post.owes topic subscriber ⟨other, data, .handedOut waiting⟩ := by
          by_cases same : other = topic
          · have apart : subscriber ≠ reader := fun equal =>
              gets ⟨same, equal.symm⟩
            subst same
            simp [Post.owes, Progress.Owes, apart]
          · simp [Post.owes, same]
        rw [owes] at counted
        have none : ¬ (first ≤ post ∧ other = topic ∧ reader = subscriber) :=
          fun all => gets all.2
        simp only [none, if_false]
        omega

/-- Whoever has subscribed to an open topic receives each further post on it once,
sooner or later. -/
theorem balance_path {start finish : Bus τ ρ δ}
    {steps : List (Bus τ ρ δ × Event τ ρ δ)}
    (path : Path step start steps finish) (bounded : start.Bounded)
    (subscribed : subscriber ∈ start.subscribers topic)
    (opened : topic ∈ start.opened) :
    finish.receivedFrom start.posts.length topic subscriber +
        finish.owed start.posts.length topic subscriber =
      steps.countP (·.2.publishes topic) := by
  have noneYet : start.receivedFrom start.posts.length topic subscriber = 0 := by
    apply List.countP_eq_zero.mpr
    intro receipt member isLater
    have bound := bounded receipt member
    simp only [decide_eq_true_eq] at isLater
    omega
  induction path with
  | refl => simp [noneYet, owed]
  | @snoc steps middle finish event earlier taken induction =>
      have moved := move_of_step taken
      have long : start.posts.length ≤ middle.posts.length := by
        apply earlier.always
          (le_rfl : start.posts.length ≤ start.posts.length)
        intro bus event next long taken
        cases move_of_step taken with
        | register _ _ _ => exact long
        | publish _ _ =>
            simp only [publish, List.length_append]
            omega
        | handOut _ => simpa [setPost] using long
        | receive _ _ => simpa [setPost] using long
      rw [balance_move moved
        ((mem_subscribers_path earlier topic subscriber).mpr (.inl subscribed))
        ((mem_opened_path earlier topic).mpr (.inl opened)) long, induction,
        List.countP_cons]

omit [DecidableEq τ] [DecidableEq ρ] in
theorem owed_eq_zero {bus : Bus τ ρ δ}
    (ended : ∀ post, first ≤ post → post < bus.posts.length → bus.Ended post)
    (topic : τ) (subscriber : ρ) : bus.owed first topic subscriber = 0 := by
  apply List.countP_eq_zero.mpr
  intro entry member owes
  obtain ⟨index, found⟩ := List.getElem?_of_mem member
  rw [List.getElem?_drop] at found
  have bound := (List.getElem?_eq_some_iff.mp found).1
  obtain ⟨other, data, none | done⟩ := ended (first + index) (by omega) bound
  · rw [found] at none
    obtain ⟨⟩ := none
    exact (Post.owes_iff.mp owes).2
  · rw [found] at done
    obtain ⟨⟩ := done
    exact (Post.owes_iff.mp owes).2

end Bus

end PubSub
