import Vnidrop.InboxCalls

/-! One prompt and one decision for an offer. A respond sends the decision, takes the offer out
of the pending map and settles it one after the other; a submit looks at the settled results
before it looks at the pending map. -/
namespace Vnidrop.OfferInbox

open Programs Runs Targeted

/-- What an operation tells a submitted offer, if it tells the decision. -/
def decides : (o : Op) → Ans o → Option TargetedOfferDecision
  | .isCooling _, true => some (.refused "identity-cooldown")
  | .settled _, some settled => some (settledToDecision settled)
  | .examine _, .refuse reason => some (.refused reason)
  | .enqueue _, .refuse reason => some (.refused reason)
  | .subscribe _, .error decision => some decision
  | .awaitDecision _, .value true => some .accepted
  | .awaitDecision _, .value false => some (.declined "receiver-declined")
  | .awaitDecision _, .closed => some (.declined "receiver-declined")
  | .awaitDecision _, .elapsed => some (.declined "no-response")
  | _, _ => none

/-- The program is told exactly one decision, and returns it. -/
def Returns : Option TargetedOfferDecision → Task TargetedOfferDecision → Prop
  | told, .ret decision => told = some decision
  | told, .step o k => ∀ r, match decides o r with
    | some decision => told = none ∧ Returns (some decision) (k r)
    | none => Returns told (k r)

theorem returns_aside {α : Type} {told : Option TargetedOfferDecision} {p : Task α}
    {f : α → Task TargetedOfferDecision} (silent : p.All fun o => ∀ r, decides o r = none)
    (rest : ∀ a, Returns told (f a)) : Returns told (p >>= f) := by
  induction p with
  | ret a => exact rest a
  | step o k ih =>
    intro r
    rw [silent.1 r]
    exact ih r (silent.2 r)

theorem discard_silent (id : TransferId) : (discard id).All fun o => ∀ r, decides o r = none :=
  ⟨fun _ => rfl,fun _ => ⟨fun _ => rfl,fun _ => ⟨fun _ => rfl,fun _ => trivial⟩⟩⟩

theorem returns_bind {told : Option TargetedOfferDecision} {p : Task TargetedOfferDecision}
    {f : TargetedOfferDecision → Task TargetedOfferDecision} (first : Returns told p)
    (rest : ∀ decision, Returns (some decision) (f decision)) : Returns told (p >>= f) := by
  induction p generalizing told with
  | ret decision =>
    cases first
    exact rest decision
  | step o k ih =>
    intro r
    have here := first r
    dsimp only at here ⊢
    cases tells : decides o r with
    | none =>
      rw [tells] at here
      exact ih r here
    | some decision =>
      rw [tells] at here
      exact ⟨here.1,ih r here.2⟩

theorem waitExistingDecision_returns (id : TransferId) : Returns none (waitExistingDecision id) := by
  rintro (decision | channel)
  · exact ⟨rfl,rfl⟩
  · rintro ((_ | _) | _ | _)
    · exact ⟨rfl,returns_aside (p := discard id) (discard_silent id) fun _ _ => rfl⟩
    · exact ⟨rfl,fun _ => rfl⟩
    · exact ⟨rfl,returns_aside (p := discard id) (discard_silent id) fun _ _ => rfl⟩
    · exact ⟨rfl,returns_aside (p := discard id) (discard_silent id) fun _ _ => rfl⟩

theorem submit_returns (offer : PendingTargetedOffer) : Returns none (submit offer) := by
  rintro (_ | _)
  · rintro (_ | settled)
    · rintro (_ | reason | _)
      · exact waitExistingDecision_returns _
      · exact ⟨rfl,rfl⟩
      · rintro (_ | reason | _)
        · exact waitExistingDecision_returns _
        · exact ⟨rfl,rfl⟩
        · exact fun _ _ => returns_bind (waitExistingDecision_returns _) fun _ _ => rfl
    · exact ⟨rfl,rfl⟩
  · exact ⟨rfl,rfl⟩

/-! The history. -/

/-- A decision for a transfer, and the offer that was pending when it was sent. -/
structure Decided where
  asked : Option PendingTargetedOffer
  accepted : Bool
  deriving DecidableEq

/-- What a submit may be told after the decision. -/
def Decided.Fits (d : Decided) (decision : TargetedOfferDecision) : Prop :=
  match d.accepted with
  | true => decision = .accepted
  | false => (∃ reason, decision = .declined reason) ∨ decision = .refused "identity-cooldown"

/-- The first decision that a respond has sent for a transfer; the responds that have declined
one, or have taken it out of the pending map, and are yet to settle it; the waiting submits. -/
structure Ledger where
  decided : TransferId → Option Decided
  closing : List (Nat × TransferId)
  waiting : List (Nat × Channel)

/-- A decision that a submit was told, and what had been decided by then. -/
structure Told where
  offer : PendingTargetedOffer
  decision : TargetedOfferDecision
  decided : Option Decided

/-- The prompts have what had been decided before them. -/
structure History where
  ledger : Ledger
  prompts : List (PendingTargetedOffer × Option Decided)
  told : List Told

namespace Ledger

def new : Ledger := ⟨fun _ => none,[],[]⟩

def accepted (h : Ledger) (id : TransferId) : Bool := (h.decided id).any (·.accepted)

def decide (h : Ledger) (id : TransferId) (d : Decided) : Ledger :=
  { h with decided := Function.update h.decided id (some ((h.decided id).getD d)) }

def close (h : Ledger) (i : Nat) (id : TransferId) : Ledger := { h with closing := (i,id) :: h.closing }

def record (h : Ledger) (s : State) (i : Nat) (call : Call) : (o : Op) → Ans o → Ledger
  | .sendDecision channel true, sent =>
    if sent then h.decide channel.transferId ⟨s.inbox.getPending channel.transferId,true⟩ else h
  | .sendDecision channel false, _ =>
    (h.decide channel.transferId ⟨s.inbox.getPending channel.transferId,false⟩).close i channel.transferId
  | .dropPending id, _ =>
    match call with
    | .respond _ true => h.close i id
    | _ => h
  | .settle id _, _ => { h with closing := h.closing.filter (· ≠ (i,id)) }
  | .subscribe _, .ok channel => { h with waiting := (i,channel) :: h.waiting }
  | .awaitDecision channel, _ => { h with waiting := h.waiting.filter (· ≠ (i,channel)) }
  | _, _ => h

end Ledger

def prompted (h : Ledger) : (o : Op) → Ans o → List (PendingTargetedOffer × Option Decided)
  | .enqueue offer, .enter => [(offer,h.decided offer.transferId)]
  | _, _ => []

def tells (h : Ledger) (call : Call) (o : Op) (r : Ans o) : List Told :=
  match call, decides o r with
  | .submit offer, some decision => [⟨offer,decision,h.decided offer.transferId⟩]
  | _, _ => []

def record (h : History) (s : State) (i : Nat) (call : Call) (o : Op) (r : Ans o) : History where
  ledger := h.ledger.record s i call o r
  prompts := prompted h.ledger o r ++ h.prompts
  told := tells h.ledger call o r ++ h.told

abbrev Seen := Observed State History

def machine (l : Settings) : Machine Seen Call Op Ans Choice Empty :=
  (calls l).observe ⟨.new,[],[]⟩ record fun h _ _ => h

/-- A submit that does not find its transfer pending finds it not settled either, and no
respond is about to settle it. An acceptance is sent on the channel that is registered, to all
who wait, while the offer is pending; no decision contradicts the first. After it nothing is
discarded, no other channel is registered, and the sender is not cooling down. -/
def guard : Guard Seen Call Op Choice Empty where
  starts _ _ := True
  steps s call o c :=
    let b := s.state.inbox
    let h := s.history.ledger
    match o with
    | .examine offer | .enqueue offer => b.getPending offer.transferId = none →
      b.settled offer.transferId = none ∧ ∀ e ∈ h.closing, e.2 ≠ offer.transferId
    | .sendDecision channel true => b.listeners channel = 0 ∨
      ((∀ d ∈ h.decided channel.transferId, d.accepted = true) ∧
      b.decisions channel.transferId = some channel ∧ b.getPending channel.transferId ≠ none ∧
      ∀ w ∈ h.waiting, w.2.transferId = channel.transferId → w.2 = channel)
    | .sendDecision channel false => h.accepted channel.transferId = false
    | .dropPending id => h.accepted id = true → call = .respond id true
    | .dropDecision id | .openDecision id => h.accepted id = false
    | .isCooling identity =>
      match call with
      | .submit offer => h.accepted offer.transferId = true → s.state.cooldown.isCooling c.now identity = false
      | _ => True
    | _ => True
  events _ _ := True

/-- What the maps show of the decisions. -/
structure Sound (b : Inbox) (h : Ledger) : Prop where
  channels : ∀ id channel, b.decisions id = some channel → channel.transferId = id
  yes : ∀ channel, b.decided channel = some true → h.accepted channel.transferId = true
  kept : ∀ id, h.accepted id = true → ∃ channel, b.decisions id = some channel ∧
    b.decided channel = some true
  waiting : ∀ w ∈ h.waiting, h.accepted w.2.transferId = true → b.decided w.2 = some true
  held : ∀ id d, h.decided id = some d → b.settled id ≠ none ∨ (∃ i, (i,id) ∈ h.closing) ∨
    (d.accepted = true ∧ b.getPending id ≠ none)
  asked : ∀ id d p, h.decided id = some d → b.getPending id = some p → d.asked = some p
  settled : ∀ id result, b.settled id = some result → ∃ d, h.decided id = some d ∧
    d.Fits (settledToDecision result)

/-- A submit of the offer that was decided, told afterwards, is told that decision. -/
def Told.Honours (t : Told) : Prop :=
  ∀ d ∈ t.decided, (∀ p ∈ d.asked, offersEquivalent p t.offer = true) → d.Fits t.decision

structure Inv (s : Seen) : Prop where
  sound : Sound s.state.inbox s.history.ledger
  prompts : ∀ p ∈ s.history.prompts, p.2 = none
  told : ∀ t ∈ s.history.told, t.Honours

/-- What thread `i` relies on. -/
structure Kept (i : Nat) (s t : Seen) : Prop where
  decided : ∀ id d, s.history.ledger.decided id = some d → t.history.ledger.decided id = some d
  waiting : ∀ channel, (i,channel) ∈ s.history.ledger.waiting → (i,channel) ∈ t.history.ledger.waiting

theorem Kept.refl (i : Nat) (s : Seen) : Kept i s s := ⟨fun _ _ h => h,fun _ h => h⟩

theorem Kept.trans {i : Nat} {s t u : Seen} (f : Kept i s t) (g : Kept i t u) : Kept i s u :=
  ⟨fun id d h => g.decided id d (f.decided id d h),fun channel h => g.waiting channel (f.waiting channel h)⟩

def terms : Terms Seen where
  known _ := True
  inv := Inv
  rely := Kept
  refl := Kept.refl
  trans i := Kept.trans (i := i)

/-- The operation is one of its call: a submit asks for its own transfer and waits on a channel
it has subscribed to, a respond settles as it has decided. -/
def Fits (h : Ledger) (i : Nat) (call : Call) : Op → Prop
  | .settled id | .subscribe id => ∀ offer, call = .submit offer → offer.transferId = id
  | .examine offer | .enqueue offer => call = .submit offer
  | .awaitDecision channel => (i,channel) ∈ h.waiting ∧
    ∀ offer, call = .submit offer → offer.transferId = channel.transferId
  | .settle id result => ∃ d, h.decided id = some d ∧ d.Fits (settledToDecision result)
  | _ => True

/-! What an operation does to the maps. -/

section Steps

variable {l : Settings} {b b' : Inbox} {h : Ledger} {s u : State} {i : Nat} {call : Call} {c : Choice}
  {o : Op} {r : Ans o} {id : TransferId} {d : Decided} {channel : Channel}

theorem accepted_iff : h.accepted id = true ↔ ∃ d, h.decided id = some d ∧ d.accepted = true := by
  unfold Ledger.accepted
  rw [Option.any_eq_true]

theorem Sound.same (sound : Sound b h) (pending : b'.pending = b.pending)
    (decisions : b'.decisions = b.decisions) (settled : b'.settled = b.settled)
    (decided : b'.decided = b.decided) : Sound b' h := by
  cases b
  cases b'
  cases pending
  cases decisions
  cases settled
  cases decided
  exact ⟨sound.channels,sound.yes,sound.kept,sound.waiting,sound.held,sound.asked,sound.settled⟩

theorem decided_cases {id' : TransferId} {d' : Decided} (there : (h.decide id d).decided id' = some d') :
    (id' = id ∧ h.decided id = none ∧ d' = d) ∨ h.decided id' = some d' := by
  unfold Ledger.decide at there
  dsimp only at there
  by_cases same : id' = id
  · subst same
    rw [Function.update_self,Option.some.injEq] at there
    cases before : h.decided id' with
    | none =>
      rw [before] at there
      exact .inl ⟨rfl,rfl,there.symm⟩
    | some d'' =>
      rw [before] at there
      exact .inr (congrArg some there)
  · rw [Function.update_of_ne same] at there
    exact .inr there

theorem decided_mono {id' : TransferId} {d' : Decided} (there : h.decided id' = some d') :
    (h.decide id d).decided id' = some d' := by
  unfold Ledger.decide
  dsimp only
  by_cases same : id' = id
  · subst same
    rw [Function.update_self,there]
    rfl
  · rwa [Function.update_of_ne same]

theorem decide_accepted {id' : TransferId} (now : (h.decide id d).accepted id' = true) :
    (id' = id ∧ d.accepted = true) ∨ h.accepted id' = true := by
  obtain ⟨d',there,yes⟩ := accepted_iff.mp now
  rcases decided_cases there with ⟨same,_,rfl⟩ | before
  · exact .inl ⟨same,yes⟩
  · exact .inr (accepted_iff.mpr ⟨d',before,yes⟩)

theorem accepted_mono {id' : TransferId} (before : h.accepted id' = true) :
    (h.decide id d).accepted id' = true := by
  obtain ⟨d',there,yes⟩ := accepted_iff.mp before
  exact accepted_iff.mpr ⟨d',decided_mono there,yes⟩

theorem Sound.accept (sound : Sound b h) (agreed : ∀ d ∈ h.decided channel.transferId, d.accepted = true)
    (registered : b.decisions channel.transferId = some channel)
    (pending : b.getPending channel.transferId ≠ none)
    (others : ∀ w ∈ h.waiting, w.2.transferId = channel.transferId → w.2 = channel) :
    Sound (b.sendDecision channel true)
      (h.decide channel.transferId ⟨b.getPending channel.transferId,true⟩) := by
  have value (channel' : Channel) : (b.sendDecision channel true).decided channel' =
      if channel' = channel then some true else b.decided channel' := Function.update_apply ..
  have accepted : (h.decide channel.transferId ⟨b.getPending channel.transferId,true⟩).accepted
      channel.transferId = true := by
    unfold Ledger.accepted Ledger.decide
    dsimp only
    rw [Function.update_self]
    cases before : h.decided channel.transferId with
    | none => rfl
    | some d => exact agreed d before
  constructor
  · exact sound.channels
  · intro channel' yes
    rw [value] at yes
    split at yes
    · rename_i same
      exact same ▸ accepted
    · exact accepted_mono (sound.yes channel' yes)
  · intro id now
    rcases decide_accepted now with ⟨rfl,_⟩ | before
    · exact ⟨channel,registered,by rw [value,if_pos rfl]⟩
    · obtain ⟨channel',there,yes⟩ := sound.kept id before
      refine ⟨channel',there,?_⟩
      rw [value]
      split
      · rfl
      · exact yes
  · intro w member now
    rw [value]
    split
    · rfl
    · rename_i other
      rcases decide_accepted now with ⟨same,_⟩ | before
      · exact absurd (others w member same) other
      · exact sound.waiting w member before
  · intro id d there
    rcases decided_cases there with ⟨rfl,_,rfl⟩ | before
    · exact .inr (.inr ⟨rfl,pending⟩)
    · exact sound.held id d before
  · intro id d p there found
    rcases decided_cases there with ⟨rfl,_,rfl⟩ | before
    · exact found
    · exact sound.asked id d p before found
  · intro id result there
    obtain ⟨d,before,fits⟩ := sound.settled id result there
    exact ⟨d,decided_mono before,fits⟩

theorem Sound.decline (sound : Sound b h) :
    Sound b ((h.decide channel.transferId ⟨b.getPending channel.transferId,false⟩).close i
      channel.transferId) := by
  have accepted {id : TransferId} (now : (h.decide channel.transferId
      ⟨b.getPending channel.transferId,false⟩).accepted id = true) : h.accepted id = true := by
    rcases decide_accepted now with ⟨_,yes⟩ | before
    · cases yes
    · exact before
  constructor
  · exact sound.channels
  · exact fun channel' yes => accepted_mono (sound.yes channel' yes)
  · exact fun id now => sound.kept id (accepted now)
  · exact fun w member now => sound.waiting w member (accepted now)
  · intro id d there
    rcases decided_cases there with ⟨rfl,_,rfl⟩ | before
    · exact .inr (.inl ⟨i,List.mem_cons_self ..⟩)
    · rcases sound.held id d before with held | ⟨j,held⟩ | held
      · exact .inl held
      · exact .inr (.inl ⟨j,List.mem_cons_of_mem _ held⟩)
      · exact .inr (.inr held)
  · intro id d p there found
    rcases decided_cases there with ⟨rfl,_,rfl⟩ | before
    · exact found
    · exact sound.asked id d p before found
  · intro id result there
    obtain ⟨d,before,fits⟩ := sound.settled id result there
    exact ⟨d,decided_mono before,fits⟩

/-- Whoever waits for a transfer that was not accepted may be told no. -/
theorem Sound.refuse (sound : Sound b h) (refused : h.accepted channel.transferId = false) :
    Sound (b.sendDecision channel false) h := by
  have value (channel' : Channel) : (b.sendDecision channel false).decided channel' =
      if channel' = channel then some false else b.decided channel' := Function.update_apply ..
  have kept {channel' : Channel} (accepted : h.accepted channel'.transferId = true)
      (yes : b.decided channel' = some true) : (b.sendDecision channel false).decided channel' = some true := by
    rw [value,if_neg]
    · exact yes
    · rintro rfl
      rw [refused] at accepted
      cases accepted
  refine ⟨sound.channels,fun channel' yes => ?_,fun id accepted => ?_,fun w member accepted =>
    kept accepted (sound.waiting w member accepted),sound.held,sound.asked,sound.settled⟩
  · rw [value] at yes
    split at yes
    · cases yes
    · exact sound.yes channel' yes
  · obtain ⟨channel',there,yes⟩ := sound.kept id accepted
    refine ⟨channel',there,kept ?_ yes⟩
    rw [sound.channels id channel' there]
    exact accepted

theorem Sound.register (sound : Sound b h) (next : Option Channel) (refused : h.accepted id = false)
    (own : ∀ channel, next = some channel → channel.transferId = id) :
    Sound { b with decisions := Function.update b.decisions id next } h := by
  constructor
  · intro id' channel there
    dsimp only at there
    by_cases same : id' = id
    · subst same
      rw [Function.update_self] at there
      exact own channel there
    · rw [Function.update_of_ne same] at there
      exact sound.channels id' channel there
  · exact sound.yes
  · intro id' accepted
    obtain ⟨channel,there,yes⟩ := sound.kept id' accepted
    refine ⟨channel,?_,yes⟩
    dsimp only
    rw [Function.update_of_ne]
    · exact there
    · rintro rfl
      rw [refused] at accepted
      cases accepted
  · exact sound.waiting
  · exact sound.held
  · exact sound.asked
  · exact sound.settled

theorem getPending_drop {id' : TransferId} {p : PendingTargetedOffer}
    (found : (b.dropPending id).getPending id' = some p) : b.getPending id' = some p := by
  change (b.pending.delete id).find id' = some p at found
  rw [Tables.Table.find_delete] at found
  split at found
  · cases found
  · exact found

theorem Sound.drop (sound : Sound b h) (refused : h.accepted id = false) : Sound (b.dropPending id) h := by
  refine ⟨sound.channels,sound.yes,sound.kept,sound.waiting,fun id' d there => ?_,fun id' d p there found =>
    sound.asked id' d p there (getPending_drop found),sound.settled⟩
  rcases sound.held id' d there with held | held | ⟨yes,held⟩
  · exact .inl held
  · exact .inr (.inl held)
  · refine .inr (.inr ⟨yes,?_⟩)
    change (b.pending.delete id).find id' ≠ none
    rw [Tables.Table.find_delete,if_neg]
    · exact held
    · rintro rfl
      rw [accepted_iff.mpr ⟨d,there,yes⟩] at refused
      cases refused

theorem Sound.take (sound : Sound b h) : Sound (b.dropPending id) (h.close i id) := by
  refine ⟨sound.channels,sound.yes,sound.kept,sound.waiting,fun id' d there => ?_,fun id' d p there found =>
    sound.asked id' d p there (getPending_drop found),sound.settled⟩
  by_cases same : id' = id
  · exact .inr (.inl ⟨i,same ▸ List.mem_cons_self ..⟩)
  · rcases sound.held id' d there with held | ⟨j,held⟩ | ⟨yes,held⟩
    · exact .inl held
    · exact .inr (.inl ⟨j,List.mem_cons_of_mem _ held⟩)
    · refine .inr (.inr ⟨yes,?_⟩)
      change (b.pending.delete id).find id' ≠ none
      rw [Tables.Table.find_delete_other _ same]
      exact held

theorem Sound.settle (sound : Sound b h) {result : SettledOfferResult} (there : h.decided id = some d)
    (fits : d.Fits (settledToDecision result)) :
    Sound (b.settle id result) { h with closing := h.closing.filter (· ≠ (i,id)) } := by
  refine ⟨sound.channels,sound.yes,sound.kept,sound.waiting,fun id' d' there' => ?_,sound.asked,
    fun id' result' found => ?_⟩
  · by_cases same : id' = id
    · subst same
      refine .inl ?_
      change Function.update b.settled id' (some result) id' ≠ none
      rw [Function.update_self]
      simp
    · have keeps : Function.update b.settled id (some result) id' = b.settled id' :=
        Function.update_of_ne same ..
      rcases sound.held id' d' there' with held | ⟨j,held⟩ | held
      · exact .inl fun none => held (keeps.symm.trans none)
      · refine .inr (.inl ⟨j,List.mem_filter.mpr ⟨held,decide_eq_true fun equal => ?_⟩⟩)
        exact same (Prod.mk.inj equal).2
      · exact .inr (.inr held)
  · change Function.update b.settled id (some result) id' = some result' at found
    by_cases same : id' = id
    · subst same
      rw [Function.update_self] at found
      cases found
      exact ⟨d,there,fits⟩
    · rw [Function.update_of_ne same] at found
      exact sound.settled id' result' found

theorem Sound.wait (sound : Sound b h) (registered : b.decisions id = some channel) :
    Sound b { h with waiting := (i,channel) :: h.waiting } := by
  refine { sound with waiting := fun w member accepted => ?_ }
  rcases List.mem_cons.mp member with rfl | old
  · obtain ⟨channel',there,yes⟩ := sound.kept _ accepted
    rw [sound.channels id channel registered,registered] at there
    cases there
    exact yes
  · exact sound.waiting w old accepted

theorem Sound.leave (sound : Sound b h) :
    Sound b { h with waiting := h.waiting.filter (· ≠ (i,channel)) } :=
  { sound with waiting := fun w member => sound.waiting w (List.mem_filter.mp member).1 }

/-- Nothing has been decided for a transfer that a submit does not find. -/
theorem Sound.undecided (sound : Sound b h) {offer : PendingTargetedOffer}
    (absent : b.getPending offer.transferId = none) (settled : b.settled offer.transferId = none)
    (closing : ∀ e ∈ h.closing, e.2 ≠ offer.transferId) : h.decided offer.transferId = none := by
  cases decided : h.decided offer.transferId with
  | none => rfl
  | some d =>
    rcases sound.held _ d decided with held | ⟨j,held⟩ | ⟨_,held⟩
    · exact absurd settled held
    · exact absurd rfl (closing _ held)
    · exact absurd absent held

theorem Sound.insert (sound : Sound b h) {offer : PendingTargetedOffer}
    (undecided : h.decided offer.transferId = none) :
    Sound { b with pending := b.pending.insertOrIgnore offer } h := by
  have found (id : TransferId) (d : Decided) (there : h.decided id = some d) :
      (b.pending.insertOrIgnore offer).find id = b.getPending id := by
    rw [Tables.Table.find_insertOrIgnore,if_neg]
    · rfl
    · rintro rfl
      rw [undecided] at there
      cases there
  refine ⟨sound.channels,sound.yes,sound.kept,sound.waiting,fun id d there => ?_,fun id d p there now =>
    sound.asked id d p there ((found id d there).symm.trans now),sound.settled⟩
  rcases sound.held id d there with held | held | ⟨yes,held⟩
  · exact .inl held
  · exact .inr (.inl held)
  · exact .inr (.inr ⟨yes,fun none => held ((found id d there).symm.trans none)⟩)

end Steps

section Operations

variable {l : Settings} {s t : Seen} {u : State} {i j : Nat} {call : Call} {c : Choice} {o : Op} {r : Ans o}

theorem subscribed_registered {s : State} {id : TransferId} {channel : Channel}
    (h : s.exec l c (.subscribe id) = some (.ok channel,u)) : s.inbox.decisions id = some channel := by
  simp only [State.exec] at h
  split at h
  · rename_i found
    cases h
    unfold Inbox.subscribe at found
    split at found
    · cases found
      assumption
    · split at found <;> cases found
  · cases h

theorem sent_listening {s : State} {channel : Channel} {decision sent : Bool}
    (h : s.exec l c (.sendDecision channel decision) = some (sent,u)) (yes : sent = true) :
    s.inbox.listeners channel ≠ 0 := by
  subst yes
  simp only [State.exec] at h
  split at h
  · cases h
  · assumption

theorem Inv.sound_step (inv : Inv s) (ok : guard.steps s call o c) (fits : Fits s.history.ledger i call o)
    (performed : s.state.exec l c o = some (r,u)) :
    Sound u.inbox (s.history.ledger.record s.state i call o r) := by
  have sound := inv.sound
  cases o with
  | enqueue offer =>
    cases performed
    change Sound (s.state.inbox.enqueue l.maxPending offer).2 s.history.ledger
    rcases Inbox.enqueue_cases s.state.inbox l.maxPending offer with ⟨same,_⟩ | ⟨absent,entered⟩
    · rw [same]
      exact sound
    · rw [entered]
      exact sound.insert (sound.undecided absent (ok absent).1 (ok absent).2)
  | openDecision id =>
    cases performed
    have opened := sound.register (some ⟨id,s.state.inbox.opened⟩) ok fun channel same => by
      cases same
      rfl
    exact opened.same rfl rfl rfl rfl
  | subscribe id =>
    have registered := fun channel (ok : r = .ok channel) => subscribed_registered (ok ▸ performed)
    simp only [State.exec] at performed
    split at performed
    · rename_i channel _
      cases performed
      exact (sound.wait (registered channel rfl)).same rfl rfl rfl rfl
    · cases performed
      exact sound
  | awaitDecision channel =>
    obtain ⟨value,_,same⟩ := Option.map_eq_some_iff.mp performed
    cases same
    exact sound.leave
  | awaitAuth channel =>
    obtain ⟨value,_,same⟩ := Option.map_eq_some_iff.mp performed
    cases same
    exact sound
  | dropPending id =>
    cases performed
    dsimp only [Ledger.record]
    split
    · exact sound.take
    · rename_i other
      refine sound.drop (Bool.eq_false_iff.mpr fun accepted => ?_)
      have own := ok accepted
      exact other id own
  | dropDecision id =>
    cases performed
    dsimp only [State.setInbox,Inbox.dropDecision,Ledger.record]
    split
    · rename_i channel registered
      have own := sound.channels id channel registered
      have refused : s.history.ledger.accepted channel.transferId = false := own ▸ ok
      exact ((sound.refuse refused).register none ok fun _ none => by cases none).same rfl rfl rfl rfl
    · exact sound
  | sendDecision channel decision =>
    cases decision with
    | true =>
      simp only [State.exec] at performed
      split at performed
      · cases performed
        exact sound
      · rename_i listening
        cases performed
        obtain ⟨agreed,registered,pending,others⟩ := ok.resolve_left listening
        exact sound.accept agreed registered pending others
    | false =>
      simp only [State.exec] at performed
      split at performed
      · cases performed
        exact sound.decline
      · cases performed
        exact (sound.refuse ok).decline
  | subscribeAuth id =>
    simp only [State.exec] at performed
    split at performed <;> cases performed
    · exact sound.same rfl rfl rfl rfl
    · exact sound
  | sendAuthorization id auth =>
    cases performed
    dsimp only [State.setInbox,Inbox.sendAuthorization,Ledger.record]
    split
    · split
      · exact sound
      · exact sound.same rfl rfl rfl rfl
    · exact sound
  | settle id result =>
    cases performed
    obtain ⟨d,there,fits⟩ := fits
    exact sound.settle there fits
  | openAuth id | dropAuth id | leave channel =>
    cases performed
    exact sound.same rfl rfl rfl rfl
  | _ =>
    cases performed
    exact sound

theorem Inv.prompted_step (inv : Inv s) (ok : guard.steps s call o c)
    (performed : s.state.exec l c o = some (r,u)) : ∀ p ∈ prompted s.history.ledger o r, p.2 = none := by
  intro p member
  unfold prompted at member
  split at member
  · rename_i offer
    cases List.mem_singleton.mp member
    rcases Inbox.enqueue_cases s.state.inbox l.maxPending offer with ⟨_,other⟩ | ⟨absent,_⟩
    · exact absurd (Prod.mk.inj (Option.some.inj performed)).1 other
    · exact inv.sound.undecided absent (ok absent).1 (ok absent).2
  · cases member

variable {offer : PendingTargetedOffer} {d : Decided} {decision : TargetedOfferDecision}

theorem fits_declined (refused : d.accepted = false) (reason : String) : d.Fits (.declined reason) := by
  unfold Decided.Fits
  rw [refused]
  exact .inl ⟨reason,rfl⟩

theorem fits_accepted (yes : d.accepted = true) : d.Fits .accepted := by
  unfold Decided.Fits
  rw [yes]

/-- A submit that looks for a decided offer finds the one that was decided. -/
theorem Inv.finds (inv : Inv s)
    (ok : s.state.inbox.getPending offer.transferId = none → s.state.inbox.settled offer.transferId = none ∧
      ∀ e ∈ s.history.ledger.closing, e.2 ≠ offer.transferId)
    (decided : s.history.ledger.decided offer.transferId = some d) :
    ∃ p ∈ d.asked, s.state.inbox.getPending offer.transferId = some p := by
  cases found : s.state.inbox.getPending offer.transferId with
  | none =>
    rw [inv.sound.undecided found (ok found).1 (ok found).2] at decided
    cases decided
  | some p => exact ⟨p,inv.sound.asked _ d p decided found,rfl⟩

/-- A submit that waits sees the acceptance, and only then. -/
theorem Inv.awaits {channel : Channel} {seen : Waited Bool} (inv : Inv s)
    (waiting : (i,channel) ∈ s.history.ledger.waiting) (own : offer.transferId = channel.transferId)
    (performed : s.state.exec l c (.awaitDecision channel) = some (seen,u))
    (decided : s.history.ledger.decided offer.transferId = some d) :
    d.accepted = true ↔ seen = .value true := by
  obtain ⟨value,waited,same⟩ := Option.map_eq_some_iff.mp performed
  cases same
  rw [own] at decided
  constructor
  · intro yes
    rw [inv.sound.waiting _ waiting (accepted_iff.mpr ⟨d,decided,yes⟩)] at waited
    exact (Option.some.inj waited).symm
  · rintro rfl
    have yes : s.state.inbox.decided channel = some true := by
      unfold Device.waited at waited
      split at waited
      · rename_i value sent
        cases waited
        exact sent
      · split at waited
        · cases waited
        · split at waited <;> cases waited
    obtain ⟨d',there,accepted⟩ := accepted_iff.mp (inv.sound.yes channel yes)
    cases decided.symm.trans there
    exact accepted

/-- What a submit is told of a decided offer. -/
theorem Inv.tells_fits (inv : Inv s) (ok : guard.steps s (.submit offer) o c)
    (fits : Fits s.history.ledger i (.submit offer) o) (performed : s.state.exec l c o = some (r,u))
    (told : decides o r = some decision) (decided : s.history.ledger.decided offer.transferId = some d)
    (same : ∀ p ∈ d.asked, offersEquivalent p offer = true) : d.Fits decision := by
  have sound := inv.sound
  unfold decides at told
  split at told
  · rename_i identity
    cases told
    have cooling := (Prod.mk.inj (Option.some.inj performed)).1
    cases yes : d.accepted with
    | true =>
      rw [ok (accepted_iff.mpr ⟨d,decided,yes⟩)] at cooling
      cases cooling
    | false =>
      unfold Decided.Fits
      rw [yes]
      exact .inr rfl
  · rename_i id result
    cases told
    cases fits offer rfl
    obtain ⟨d',there,right⟩ := sound.settled _ result (Prod.mk.inj (Option.some.inj performed)).1
    cases decided.symm.trans there
    exact right
  · rename_i reason
    cases fits
    obtain ⟨p,asked,found⟩ := inv.finds ok decided
    have joined := (Prod.mk.inj (Option.some.inj performed)).1
    unfold Inbox.examine at joined
    rw [found] at joined
    dsimp only at joined
    rw [if_pos (same p asked)] at joined
    cases joined
  · rename_i reason
    cases fits
    obtain ⟨p,asked,found⟩ := inv.finds ok decided
    have joined : (s.state.inbox.enqueue l.maxPending offer).1 = .refuse reason :=
      (Prod.mk.inj (Option.some.inj performed)).1
    unfold Inbox.enqueue at joined
    rw [found] at joined
    cases joined
  · rename_i id answer
    cases told
    cases fits offer rfl
    have asked : s.state.inbox.subscribe offer.transferId = .error decision := by
      simp only [State.exec] at performed
      split at performed <;> cases performed
      assumption
    unfold Inbox.subscribe at asked
    split at asked
    · cases asked
    rename_i closed
    have refused : d.accepted = false := by
      refine Bool.eq_false_iff.mpr fun yes => ?_
      obtain ⟨channel,there,_⟩ := sound.kept _ (accepted_iff.mpr ⟨d,decided,yes⟩)
      rw [closed] at there
      cases there
    split at asked
    · rename_i result settled
      cases asked
      obtain ⟨d',there,right⟩ := sound.settled _ result settled
      cases decided.symm.trans there
      exact right
    · cases asked
      exact fits_declined refused _
  · cases told
    exact fits_accepted ((inv.awaits fits.1 (fits.2 offer rfl) performed decided).mpr rfl)
  all_goals cases told
  all_goals
    refine fits_declined (Bool.eq_false_iff.mpr fun yes => ?_) _
    cases (inv.awaits fits.1 (fits.2 offer rfl) performed decided).mp yes

theorem exec_machine (h : (machine l).exec s i call o c = some (r,t)) :
    ∃ u, s.state.exec l c o = some (r,u) ∧ t = ⟨u,record s.history s.state i call o r⟩ := observe_exec h

theorem Inv.step (inv : Inv s) (ok : guard.steps s call o c) (fits : Fits s.history.ledger i call o)
    (h : (machine l).exec s i call o c = some (r,t)) : Inv t := by
  obtain ⟨u,performed,rfl⟩ := exec_machine h
  refine ⟨inv.sound_step ok fits performed,fun p member => ?_,fun told member => ?_⟩
  · rcases List.mem_append.mp member with fresh | old
    · exact inv.prompted_step ok performed p fresh
    · exact inv.prompts p old
  · rcases List.mem_append.mp member with fresh | old
    · unfold tells at fresh
      split at fresh
      · rename_i offer decision told
        cases List.mem_singleton.mp fresh
        exact fun d decided same => inv.tells_fits ok fits performed told decided same
      · cases fresh
    · exact inv.told told old

theorem record_decided (h : Ledger) (s : State) (i : Nat) (call : Call) (o : Op) (r : Ans o) :
    (∃ id d, (h.record s i call o r).decided = (h.decide id d).decided) ∨
    (h.record s i call o r).decided = h.decided := by
  unfold Ledger.record
  split
  · split
    · exact .inl ⟨_,_,rfl⟩
    · exact .inr rfl
  · exact .inl ⟨_,_,rfl⟩
  · split <;> exact .inr rfl
  all_goals exact .inr rfl

theorem record_waiting {h : Ledger} {s : State} {channel : Channel} (there : (j,channel) ∈ h.waiting)
    (apart : j ≠ i ∨ ∀ channel, o ≠ .awaitDecision channel) :
    (j,channel) ∈ (h.record s i call o r).waiting := by
  unfold Ledger.record
  split
  · split <;> exact there
  · exact there
  · split <;> exact there
  · exact there
  · exact List.mem_cons_of_mem _ there
  · rcases apart with other | apart
    · exact List.mem_filter.mpr ⟨there,by simp [other]⟩
    · exact absurd rfl (apart _)
  · exact there

theorem Kept.step (h : (machine l).exec s i call o c = some (r,t))
    (apart : j ≠ i ∨ ∀ channel, o ≠ .awaitDecision channel) : Kept j s t := by
  obtain ⟨u,_,rfl⟩ := exec_machine h
  constructor
  · intro id d there
    change (s.history.ledger.record s.state i call o r).decided id = some d
    rcases record_decided s.history.ledger s.state i call o r with ⟨id',d',same⟩ | same
    · rw [same]
      exact decided_mono there
    · rwa [same]
  · exact fun channel there => record_waiting there apart

end Operations

/-! The calls. -/

section Calls

variable {α β : Type} {l : Settings} {i : Nat} {call : Call} {s : Seen} {id : TransferId}

abbrev Safely (l : Settings) (i : Nat) (call : Call) (p : Task α) (post : α → Seen → Prop) (s : Seen) :
    Prop := Safe (machine l) guard terms i call p post s

/-- An operation of its call leaves the others what they rely on. -/
theorem safe_op {o : Op} {f : Ans o → Task β} {post : β → Seen → Prop}
    (fits : ∀ t, Inv t → Kept i s t → Fits t.history.ledger i call o)
    (rest : ∀ t c r u, Inv t → Kept i s t → guard.steps t call o c →
      (machine l).exec t i call o c = some (r,u) → Safely l i call (f r) post u) :
    Safely l i call (op o >>= f) post s := by
  intro t _ inv kept c r u ok performed
  have step := inv.step ok (fits t inv kept) performed
  exact ⟨⟨step,fun j other => Kept.step performed (.inl other)⟩,rest t c r u inv kept ok performed⟩

/-- Operations any call may perform, with nothing to be known. -/
def loose : Op → Bool
  | .settled _ | .subscribe _ | .examine _ | .enqueue _ | .awaitDecision _ | .settle .. => false
  | _ => true

theorem quiet_op {o : Op} (any : loose o = true) : Quiet (machine l) guard terms i call o := by
  intro t _ inv c r u ok performed
  have fits : Fits t.history.ledger i call o := by
    cases o <;> first | exact trivial | cases any
  refine ⟨inv.step ok fits performed,fun j => Kept.step performed (.inr ?_)⟩
  rintro channel rfl
  cases any

theorem safe_loose {p : Task α} (any : p.All fun o => loose o = true) (s : Seen) :
    Safely l i call p (fun _ t => Kept i s t) s := by
  refine safe_quiet ?_ s
  induction p with
  | ret a => trivial
  | step o k ih => exact ⟨quiet_op any.1,fun r => ih r (any.2 r)⟩

theorem discard_loose (id : TransferId) : (discard id).All fun o => loose o = true :=
  ⟨rfl,fun _ => ⟨rfl,fun _ => ⟨rfl,fun _ => trivial⟩⟩⟩

theorem safe_next {o : Op} {f : Ans o → Task β} {post : β → Seen → Prop} (any : loose o = true)
    (rest : ∀ r u, Kept i s u → Safely l i call (f r) post u) : Safely l i call (op o >>= f) post s :=
  safe_bind (safe_mono rest (safe_loose (Prog.all_perform any) s))

abbrev Plain (l : Settings) (i : Nat) (call : Call) (p : Task α) : Prop :=
  Keeps (machine l) guard terms i call (fun _ => True) p

theorem plain_loose {p : Task α} (any : p.All fun o => loose o = true) : Plain l i call p :=
  fun s _ => safe_mono (fun _ _ _ => trivial) (safe_loose any s)

theorem plain_op {o : Op} {f : Ans o → Task β} (fits : ∀ t : Seen, Fits t.history.ledger i call o)
    (rest : ∀ r, Plain l i call (f r)) : Plain l i call (op o >>= f) :=
  fun _ _ => safe_op (fun t _ _ => fits t) fun _ _ r u _ _ _ _ => rest r u trivial

theorem plain_wait (own : ∀ offer, call = .submit offer → offer.transferId = id) :
    Plain l i call (waitExistingDecision id) := by
  intro s _
  refine safe_op (fun _ _ _ => own) fun t c r u inv _ _ performed => ?_
  cases r with
  | error decision => trivial
  | ok channel =>
    obtain ⟨v,subscribed,rfl⟩ := exec_machine performed
    have registered : t.state.inbox.decisions id = some channel := subscribed_registered subscribed
    have same := inv.sound.channels id channel registered
    refine safe_op (fun w _ kept => ⟨kept.waiting channel (List.mem_cons_self ..),fun offer mine =>
      (own offer mine).trans same.symm⟩) fun w c r x _ _ _ _ => ?_
    have declined (reason : String) : Plain l i call (do
        discard id
        op (.leave channel)
        return TargetedOfferDecision.declined reason) :=
      plain_loose ⟨rfl,fun _ => ⟨rfl,fun _ => ⟨rfl,fun _ => ⟨rfl,fun _ => trivial⟩⟩⟩⟩
    rcases r with (_ | _) | _ | _
    · exact declined _ x trivial
    · exact plain_loose (p := op (.leave channel) >>= fun _ => pure TargetedOfferDecision.accepted)
        ⟨rfl,fun _ => trivial⟩ x trivial
    · exact declined _ x trivial
    · exact declined _ x trivial

theorem plain_submit (offer : PendingTargetedOffer) : Plain l i (.submit offer) (submit offer) := by
  have own : ∀ o, Call.submit offer = .submit o → o.transferId = offer.transferId := by
    rintro _ ⟨⟩
    rfl
  refine plain_op (fun _ => trivial) fun cooling => ?_
  split
  · exact keeps_pure
  refine plain_op (fun _ => own) fun settled => ?_
  split
  · exact keeps_pure
  refine plain_op (fun _ => rfl) fun looked => ?_
  split
  · exact plain_wait own
  · exact keeps_pure
  refine plain_op (fun _ => rfl) fun entered => ?_
  split
  · exact plain_wait own
  · exact keeps_pure
  refine plain_op (fun _ => trivial) fun channel => ?_
  refine plain_op (fun _ => trivial) fun _ => ?_
  exact keeps_bind (plain_wait own) fun _ => plain_loose ⟨rfl,fun _ => trivial⟩

/-- The user has decided so. -/
def Answered (id : TransferId) (accepted : Bool) (s : Seen) : Prop :=
  ∃ d, s.history.ledger.decided id = some d ∧ d.accepted = accepted

theorem Kept.answered {s t : Seen} {accepted : Bool} (kept : Kept i s t) (answered : Answered id accepted s) :
    Answered id accepted t := by
  obtain ⟨d,there,same⟩ := answered
  exact ⟨d,kept.decided id d there,same⟩

theorem safe_sendDecision {channel : Channel} {accepted : Bool} (own : channel.transferId = id) (s : Seen) :
    Safely l i call (op (.sendDecision channel accepted)) (fun sent t =>
      sent = true ∨ accepted = false → Answered id accepted t) s := by
  intro t _ inv kept c r u ok performed
  refine ⟨⟨inv.step ok trivial performed,fun j other => Kept.step performed (.inl other)⟩,fun sent => ?_⟩
  obtain ⟨v,ran,rfl⟩ := exec_machine performed
  subst own
  refine ⟨(t.history.ledger.decided channel.transferId).getD
    ⟨t.state.inbox.getPending channel.transferId,accepted⟩,?_,?_⟩
  · cases accepted with
    | true =>
      cases sent.resolve_right Bool.noConfusion
      exact Function.update_self ..
    | false => exact Function.update_self ..
  · cases decided : t.history.ledger.decided channel.transferId with
    | none => rfl
    | some d =>
      cases accepted with
      | true =>
        have listening := sent_listening ran (sent.resolve_right Bool.noConfusion)
        exact (ok.resolve_left listening).1 d decided
      | false =>
        have refused : t.history.ledger.accepted channel.transferId = false := ok
        unfold Ledger.accepted at refused
        rwa [decided] at refused

theorem decisionOf_own {t u : Seen} {c : Choice} {channel : Channel} (inv : Inv t)
    (h : (machine l).exec t i call (.decisionOf id) c = some (some channel,u)) : channel.transferId = id := by
  obtain ⟨v,ran,_⟩ := exec_machine h
  exact inv.sound.channels id channel (Prod.mk.inj (Option.some.inj ran)).1

theorem safe_acceptLive (s : Seen) : Safely l i call (acceptLive id) (fun r t =>
    r = .ok () → Answered id true t) s := by
  refine safe_op (fun _ _ _ => trivial) fun t c decision u inv _ _ performed => ?_
  split
  · exact fun h => by cases h
  rename_i channel
  refine safe_next rfl fun auth v _ => ?_
  refine safe_bind (safe_mono (fun sent w told => ?_) (safe_sendDecision (decisionOf_own inv performed) v))
  split
  · rename_i yes
    have answered := told (.inl yes)
    exact safe_next rfl fun _ _ kept _ => kept.answered answered
  · exact safe_next rfl fun _ _ _ => safe_next rfl fun _ _ _ h => by cases h

theorem safe_waitForAuthorization (aside : ∀ offer, call ≠ .submit offer) (answered : Answered id true s) :
    Safely l i call (waitForAuthorization id) (fun _ _ => True) s := by
  refine safe_op (fun _ _ _ offer same => absurd same (aside offer)) fun t c settled t' _ kept _ performed => ?_
  replace answered := (kept.trans (Kept.step performed (.inr (by rintro channel ⟨⟩)))).answered answered
  split
  · trivial
  refine safe_next rfl fun found u kept => ?_
  replace answered := kept.answered answered
  split
  · trivial
  rename_i channel
  refine safe_next rfl fun seen v kept => ?_
  replace answered := kept.answered answered
  split
  · rename_i auth
    refine safe_next rfl fun _ w kept => safe_next rfl fun _ x kept' => ?_
    replace answered := kept'.answered (kept.answered answered)
    refine safe_op (fun y _ kept => ?_) fun _ _ _ y _ _ _ _ => safe_next rfl fun _ _ _ => trivial
    obtain ⟨d,there,yes⟩ := kept.answered answered
    exact ⟨d,there,fits_accepted yes⟩
  · exact safe_next rfl fun _ _ _ => safe_next rfl fun _ _ _ => trivial

theorem plain_respond (id : TransferId) (accepted : Bool) :
    Plain l i (.respond id accepted) (respond id accepted) := by
  have aside : ∀ offer, Call.respond id accepted ≠ .submit offer := fun _ => Call.noConfusion
  refine plain_op (fun _ offer same => absurd same (aside offer)) fun settled => ?_
  split
  · exact keeps_pure
  refine plain_op (fun _ => trivial) fun pending => ?_
  split
  · exact keeps_pure
  rename_i pending
  split
  · refine fun s _ => safe_bind (safe_mono (fun lived t told => ?_) (safe_acceptLive s))
    split
    · trivial
    · exact safe_waitForAuthorization aside (told rfl)
  · refine fun s _ => safe_op (fun _ _ _ => trivial) fun t c decision u inv _ _ performed => ?_
    split
    · trivial
    rename_i channel
    refine safe_bind (safe_mono (fun _ v told => ?_) (safe_sendDecision (decisionOf_own inv performed) u))
    have answered := told (.inr rfl)
    refine safe_bind (safe_mono (fun _ w kept => ?_) (safe_loose (discard_loose id) v))
    refine safe_next rfl fun _ x kept' => ?_
    replace answered := kept'.answered (kept.answered answered)
    refine safe_op (fun y _ kept => ?_) fun _ _ _ _ _ _ _ _ => trivial
    obtain ⟨d,there,refused⟩ := kept.answered answered
    exact ⟨d,there,fits_declined refused _⟩

theorem plain_call (call : Call) : Plain l i call call.body := by
  cases call with
  | submit offer => exact keeps_bind (plain_submit offer) fun _ => keeps_pure
  | respond id accepted => exact keeps_bind (plain_respond id accepted) fun _ => keeps_pure
  | deliverAuthorization id auth =>
    refine keeps_bind (plain_op (fun _ _ other => nomatch other) fun settled => ?_) fun _ => keeps_pure
    split
    · exact keeps_pure
    · exact plain_loose ⟨rfl,fun _ => trivial⟩
  | discard id => exact plain_loose (discard_loose id)
  | discardFrom endpoint =>
    refine plain_op (fun _ => trivial) fun ids => plain_loose ?_
    induction ids with
    | nil => trivial
    | cons id ids ih => exact Prog.all_bind (discard_loose id) fun _ => ih

end Calls

/-- In every run whose steps meet the side condition, a transfer that was decided is prompted for
no more, and a submit of its offer is told, and returns, what the user has decided. -/
theorem one_decision {l : Settings} {c : Conf Seen Call Op Ans}
    (reach : Reach (machine l).system guard.holds c) :
    (∀ p ∈ c.shared.history.prompts, p.2 = none) ∧ (∀ t ∈ c.shared.history.told, t.Honours) ∧
    ∀ offer, Returns none (submit offer) := by
  have secured : Secured (machine l) guard terms (fun _ _ _ => True) c :=
    reach_secured (fun _ _ => trivial) ?_ (fun c call _ _ _ _ => plain_call call c.shared trivial)
      (fun _ _ _ _ _ _ => trivial) (fun _ e => nomatch e) reach
  · exact ⟨secured.inv.prompts,secured.inv.told,submit_returns⟩
  · rintro s ⟨first,same⟩
    obtain ⟨state,history⟩ := s
    cases first
    cases same
    constructor
    · constructor <;> simp [Inbox.new,Ledger.new,Ledger.accepted]
    · simp
    · simp

namespace Sample

def settings : Settings := ⟨4,60000⟩

def offer : PendingTargetedOffer where
  transferId := 7
  senderEndpointId := 1
  receiverEndpointId := 2
  manifestId := 3
  contentHash := 3
  transferName := 4
  fileCount := 1
  totalSize := 10
  protocolVersion := 1
  receivedAt := 0

def start : Conf Seen Call Op Ans := ⟨⟨.new,⟨.new,[],[]⟩⟩,[]⟩

theorem started : (machine settings).system.init start := ⟨⟨rfl,rfl⟩,rfl⟩

def act (i : Nat) (now : Millis) : Label Call Choice Empty := .act i ⟨now,false⟩

/-- The offer is prompted, and the user declines it. -/
def declines : List (Label Call Choice Empty) :=
  .fork (.submit offer) :: List.replicate 7 (act 0 0) ++ .fork (.respond 7 false) :: List.replicate 4 (act 1 0)

/-- A replay comes in while the decision is not settled. -/
def races : List (Label Call Choice Empty) :=
  declines ++ act 1 0 :: .fork (.submit offer) :: List.replicate 4 (act 2 0)

/-- Replays come in afterwards, in the cooldown and after it. -/
def waits : List (Label Call Choice Empty) :=
  declines ++ List.replicate 5 (act 1 0) ++ act 0 0 :: .fork (.submit offer) :: act 2 0 ::
    .fork (.submit offer) :: List.replicate 2 (act 3 70000)

def after (labels : List (Label Call Choice Empty)) : Conf Seen Call Op Ans :=
  ((machine settings).system.run start labels).getD start

end Sample

open OfferInbox.Sample in
/-- The offer is prompted again after it was declined. -/
theorem prompted_twice :
    (machine settings).system.init start ∧
    (machine settings).system.run start races = some (after races) ∧
    (after races).shared.history.prompts = [(offer,some ⟨some offer,false⟩),(offer,none)] :=
  ⟨started,rfl,rfl⟩

instance (s : Seen) (call : Call) : Decidable (guard.starts s call) := isTrue trivial

instance (s : Seen) (e : Empty) : Decidable (guard.events s e) := isTrue trivial

instance (s : Seen) (call : Call) (o : Op) (c : Choice) : Decidable (guard.steps s call o c) :=
  match o with
  | .examine _ | .enqueue _ => inferInstanceAs (Decidable (_ → _ ∧ ∀ _ ∈ _, _))
  | .sendDecision _ true =>
    inferInstanceAs (Decidable (_ ∨ ((∀ _ ∈ _, _) ∧ _ ∧ _ ∧ ∀ _ ∈ _, _)))
  | .sendDecision _ false | .dropDecision _ | .openDecision _ => inferInstanceAs (Decidable (_ = _))
  | .dropPending _ => inferInstanceAs (Decidable (_ → _))
  | .isCooling _ =>
    match call with
    | .submit _ => inferInstanceAs (Decidable (_ → _))
    | .respond .. | .deliverAuthorization .. | .discard _ | .discardFrom _ => isTrue trivial
  | .clearStrikes _ | .recordDecline _ | .settled _ | .subscribe _ | .awaitDecision _ | .getPending _
  | .pendingFrom _ | .dropAuth _ | .decisionOf _ | .openAuth _ | .subscribeAuth _ | .awaitAuth _
  | .sendAuthorization .. | .settle .. | .leave _ => isTrue trivial

open OfferInbox.Sample in
/-- The replays are refused, and declined. -/
theorem decision_kept :
    (after waits).shared.history.told.map (·.decision) =
      [.declined "receiver-declined",.refused "identity-cooldown",.declined "receiver-declined"] ∧
    (∀ p ∈ (after waits).shared.history.prompts, p.2 = none) ∧
    (∀ t ∈ (after waits).shared.history.told, t.Honours) ∧ ∀ offer, Returns none (submit offer) := by
  have reach : Reach (machine settings).system guard.holds (after waits) :=
    (Reach.start _ started).run (by decide)
      (show (machine settings).system.run _ waits = some _ from rfl)
  exact ⟨rfl,one_decision reach⟩

end Vnidrop.OfferInbox
