import Leven.Channel
import Leven.Transition.System

/-!
# The channels of one epoll instance

* `ChannelOp`: the operations that change the mask of a channel, with the mask behind each;
  `Allowed` is their precondition: what is disabled is polling;
* `Channel.Performs`: at most one operation, with the calls of `epoll_ctl` it makes;
* `Channels`, `Channels.system`: channels with distinct descriptors over one interest list, and the
  runs of their operations;
* `Mirrored`: the interest list holds the mask of each channel that is polling, and nothing for the
  others.
-/

namespace Leven

open Transition

/-- The operations of a channel that change its mask. -/
inductive ChannelOp
  | enableRead
  | enableWrite
  | disableRead
  | disableWrite
  | disableAll
  deriving DecidableEq

namespace ChannelOp

variable {op : ChannelOp} {ch : Channel} {k : Interest}

/-- The operation, on a channel. -/
def run : ChannelOp → Channel → Except Assertion (Channel × EpollCtl)
  | .enableRead => Channel.enableRead
  | .enableWrite => Channel.enableWrite
  | .disableRead => Channel.disableRead
  | .disableWrite => Channel.disableWrite
  | .disableAll => Channel.disableAll

/-- The mask behind the operation. -/
def mask : ChannelOp → Mask → Mask
  | .enableRead, m => m ∪ {.epollin, .epollpri}
  | .enableWrite, m => m ∪ {.epollout}
  | .disableRead, m => m \ {.epollin}
  | .disableWrite, m => m \ {.epollout}
  | .disableAll, _ => ∅

def isDisable : ChannelOp → Bool
  | .enableRead | .enableWrite => false
  | .disableRead | .disableWrite | .disableAll => true

/-- Only a channel that is polling is disabled. -/
def Allowed (op : ChannelOp) (ch : Channel) : Prop := op.isDisable = true → ch.polling = true

instance (op : ChannelOp) (ch : Channel) : Decidable (op.Allowed ch) :=
  inferInstanceAs (Decidable (_ → _))

theorem run_eq_update (op : ChannelOp) (ch : Channel) :
    op.run ch = Channel.update { ch with events := op.mask ch.events } := by
  cases op <;> rfl

/-- An operation that is allowed succeeds. -/
theorem run_eq (h : op.Allowed ch) :
    op.run ch = .ok (ch.setEvents (op.mask ch.events), ch.ctl (op.mask ch.events)) := by
  rw [run_eq_update]
  refine Channel.update_eq ?_
  cases op with
  | enableRead | enableWrite => exact .inl (by simp [mask])
  | disableRead | disableWrite | disableAll => exact .inr (h rfl)

/-- `ADD` is issued for an absent descriptor, `MOD` and `DEL` for a present one. -/
theorem ctl_add_iff (h : op.Allowed ch) (hs : ch.Synced k) :
    (ch.ctl (op.mask ch.events)).op = .add ↔ k ch.fd = none := by
  rw [hs.1]
  unfold Channel.ctl
  cases hp : ch.polling with
  | true => split_ifs <;> simp_all
  | false =>
    have hne : op.mask ch.events ≠ ∅ := by
      cases op with
      | enableRead | enableWrite => simp [mask]
      | disableRead | disableWrite | disableAll => rw [h rfl] at hp; cases hp
    simp [hne]

/-- No operation but `enableRead` subscribes to `EPOLLIN`. -/
theorem mem_mask_epollin {m : Mask} (h : .epollin ∈ op.mask m) :
    op = .enableRead ∨ .epollin ∈ m := by
  cases op with
  | enableRead => exact .inl rfl
  | enableWrite | disableWrite => exact .inr (by simpa [mask] using h)
  | disableRead | disableAll => simp [mask] at h

end ChannelOp

/-- The channel `ch` runs an operation, if one is given, and makes the calls `ctls`. -/
def Channel.Performs (ch : Channel) (op : Option ChannelOp) (ctls : List EpollCtl)
    (ch' : Channel) : Prop :=
  match op with
  | none => ctls = [] ∧ ch'.events = ch.events ∧ ch'.polling = ch.polling
  | some op => op.Allowed ch ∧ ∃ ch₁ ctl, op.run ch = .ok (ch₁, ctl) ∧ ctls = [ctl] ∧
      ch'.events = ch₁.events ∧ ch'.polling = ch₁.polling

/-- The channels of an epoll instance, with its interest list. -/
structure Channels (ι : Type*) where
  channel : ι → Channel
  interest : Interest

namespace Channels

variable {ι : Type*} [DecidableEq ι] {fd : ι → Fd} {s s' : Channels ι} {i j : ι} {op : ChannelOp}

/-- The operation `op` of the channel `i`, where it is allowed. -/
def step (s : Channels ι) : ι × ChannelOp → Outcome Assertion (Channels ι)
  | (i, op) =>
    .guard (op.Allowed (s.channel i)) <|
      (Outcome.ofExcept (op.run (s.channel i))).bind fun (ch, ctl) =>
        .next { channel := Function.update s.channel i ch, interest := ctl.apply s.interest }

/-- New channels on the descriptors `fd`, none of which is registered. -/
def system (fd : ι → Fd) : System (Channels ι) (ι × ChannelOp) Assertion where
  init s := (s.channel = fun i => Channel.new (fd i)) ∧ ∀ i, s.interest (fd i) = none
  step := step

/-- The state behind the operation. -/
def updated (s : Channels ι) (i : ι) (op : ChannelOp) : Channels ι where
  channel := Function.update s.channel i
    ((s.channel i).setEvents (op.mask (s.channel i).events))
  interest := ((s.channel i).ctl (op.mask (s.channel i).events)).apply s.interest

/-- The interest list mirrors the channels. -/
structure Mirrored (fd : ι → Fd) (s : Channels ι) : Prop where
  fd : ∀ i, (s.channel i).fd = fd i
  synced : ∀ i, (s.channel i).Synced s.interest

theorem step_eq (h : op.Allowed (s.channel i)) :
    (system fd).step s (i, op) = .next (s.updated i op) := by
  change step s (i, op) = _
  simp only [step, Outcome.guard, if_pos h, ChannelOp.run_eq h]
  rfl

theorem eq_of_step (h : (system fd).step s (i, op) = .next s') :
    op.Allowed (s.channel i) ∧ s' = s.updated i op := by
  have ha : op.Allowed (s.channel i) := by
    change step s (i, op) = _ at h
    exact (Outcome.guard_eq_next.1 h).1
  rw [step_eq ha] at h
  cases h
  exact ⟨ha, rfl⟩

theorem updated_self (s : Channels ι) (i : ι) (op : ChannelOp) :
    (s.updated i op).channel i = (s.channel i).setEvents (op.mask (s.channel i).events) :=
  Function.update_self ..

/-- An operation of one channel leaves the entries of the others alone. -/
theorem Mirrored.updated_other (hs : Mirrored fd s) (hfd : Function.Injective fd) (hj : j ≠ i)
    (op : ChannelOp) :
    (s.updated i op).channel j = s.channel j ∧
      (s.updated i op).interest (fd j) = s.interest (fd j) := by
  refine ⟨Function.update_of_ne hj _ _, Channel.ctl_other _ s.interest ?_⟩
  rw [hs.fd i]
  exact hfd.ne hj

theorem Mirrored.updated (hs : Mirrored fd s) (hfd : Function.Injective fd) :
    Mirrored fd (s.updated i op) := by
  constructor
  · intro j
    by_cases hj : j = i
    · subst hj
      rw [updated_self]
      exact hs.fd j
    · rw [(hs.updated_other hfd hj op).1]
      exact hs.fd j
  · intro j
    by_cases hj : j = i
    · subst hj
      rw [updated_self]
      exact Channel.setEvents_synced _ (hs.synced j)
    · obtain ⟨hch, hk⟩ := hs.updated_other hfd hj op
      have hold := hs.synced j
      unfold Channel.Synced at hold ⊢
      rw [hch, hs.fd j, hk, ← hs.fd j]
      exact hold

theorem Mirrored.of_reachable (hfd : Function.Injective fd) (hr : (system fd).Reachable s) :
    Mirrored fd s := by
  refine hr.invariant ?_ ?_
  · rintro s ⟨hch, hk⟩
    constructor
    · intro i
      rw [hch]
      rfl
    · intro i
      rw [hch]
      exact Channel.new_synced (fd i) (hk i)
  · rintro s ⟨i, op⟩ s' hs - h
    obtain ⟨-, rfl⟩ := eq_of_step h
    exact hs.updated hfd

end Channels
end Leven
