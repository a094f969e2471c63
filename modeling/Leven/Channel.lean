import Leven.Basic

/-!
# Channels and the epoll interest list

`Channel` is the event mask of one descriptor together with the flag that says whether the
descriptor is registered.  Every change of the mask goes through `Channel.update`, that is
`EventLoop::updateChannel` and `Epoller::updateChannel`, which issues one call of `epoll_ctl`:
`ADD`, `MOD` or `DEL`.  `Synced ch k` says that the interest list `k` holds for the descriptor of
`ch` what `ch` believes; every update keeps it (`setEvents_synced`) and leaves the other
descriptors alone (`ctl_other`).

`tie` records a reference that nothing reads.
-/

namespace Leven

/-- One descriptor and the events it is interested in. -/
structure Channel where
  fd : Fd
  polling : Bool
  events : Mask
  revents : Mask
  tied : Bool
  handlingEvents : Bool

/-- The constructor of `Channel`. -/
def Channel.new (fd : Fd) : Channel :=
  { fd := fd, polling := false, events := ∅, revents := ∅, tied := false, handlingEvents := false }

def Channel.hasNoneEvents (ch : Channel) : Prop := ch.events = ∅

instance (ch : Channel) : Decidable ch.hasNoneEvents := inferInstanceAs (Decidable (_ = ∅))

/-- `Epoller::updateChannel`: the channel afterwards and the call of `epoll_ctl`. -/
def Epoller.updateChannel (ch : Channel) : Except Assertion (Channel × EpollCtl) :=
  if ch.polling = false then
    if ch.hasNoneEvents then .error .updateChannel
    else .ok ({ ch with polling := true }, ⟨.add, ch.fd, ch.events⟩)
  else if ¬ ch.hasNoneEvents then .ok (ch, ⟨.mod, ch.fd, ch.events⟩)
  else .ok ({ ch with polling := false }, ⟨.del, ch.fd, ch.events⟩)

namespace Channel

variable {ch : Channel} {k : Interest}

def isReading (ch : Channel) : Prop := .epollin ∈ ch.events

def isWriting (ch : Channel) : Prop := .epollout ∈ ch.events

instance (ch : Channel) : Decidable ch.isReading := inferInstanceAs (Decidable (_ ∈ _))

instance (ch : Channel) : Decidable ch.isWriting := inferInstanceAs (Decidable (_ ∈ _))

/-- `Channel::update`, through `EventLoop::updateChannel`. -/
def update (ch : Channel) : Except Assertion (Channel × EpollCtl) := Epoller.updateChannel ch

def enableRead (ch : Channel) : Except Assertion (Channel × EpollCtl) :=
  update { ch with events := ch.events ∪ {.epollin, .epollpri} }

def enableWrite (ch : Channel) : Except Assertion (Channel × EpollCtl) :=
  update { ch with events := ch.events ∪ {.epollout} }

/-- `EPOLLPRI` stays subscribed. -/
def disableRead (ch : Channel) : Except Assertion (Channel × EpollCtl) :=
  update { ch with events := ch.events \ {.epollin} }

def disableWrite (ch : Channel) : Except Assertion (Channel × EpollCtl) :=
  update { ch with events := ch.events \ {.epollout} }

def disableAll (ch : Channel) : Except Assertion (Channel × EpollCtl) :=
  update { ch with events := ∅ }

/-- `Channel::tie` stores a `weak_ptr`; no function of the source reads it. -/
def tie (ch : Channel) : Channel := { ch with tied := true }

/-! ### The update -/

/-- The channel after an update to the mask `m`. -/
def setEvents (ch : Channel) (m : Mask) : Channel :=
  { ch with events := m, polling := decide (m ≠ ∅) }

/-- The call of `epoll_ctl` an update to the mask `m` makes. -/
def ctl (ch : Channel) (m : Mask) : EpollCtl :=
  ⟨if m = ∅ then .del else if ch.polling then .mod else .add, ch.fd, m⟩

section SetEvents

variable {m : Mask}

@[simp] theorem setEvents_fd : (ch.setEvents m).fd = ch.fd := rfl
@[simp] theorem setEvents_events : (ch.setEvents m).events = m := rfl
@[simp] theorem setEvents_polling : (ch.setEvents m).polling = decide (m ≠ ∅) := rfl
@[simp] theorem setEvents_revents : (ch.setEvents m).revents = ch.revents := rfl
@[simp] theorem setEvents_handlingEvents :
    (ch.setEvents m).handlingEvents = ch.handlingEvents := rfl

/-- An update succeeds unless it would take an unregistered channel to no events at all. -/
theorem update_eq (h : m ≠ ∅ ∨ ch.polling = true) :
    update { ch with events := m } = .ok (ch.setEvents m, ch.ctl m) := by
  unfold update Epoller.updateChannel hasNoneEvents setEvents ctl
  by_cases hm : m = ∅
  · simp [hm, h.resolve_left (not_not.2 hm)]
  · cases hp : ch.polling <;> simp [hm]

theorem update_error (h : m = ∅) (hp : ch.polling = false) :
    update { ch with events := m } = .error .updateChannel := by
  unfold update Epoller.updateChannel hasNoneEvents
  simp [h, hp]

theorem eq_of_update {p : Channel × EpollCtl} (h : update { ch with events := m } = .ok p) :
    p = (ch.setEvents m, ch.ctl m) := by
  by_cases hm : m ≠ ∅ ∨ ch.polling = true
  · rw [update_eq hm] at h; cases h; rfl
  · rw [not_or, not_not, Bool.not_eq_true] at hm
    rw [update_error hm.1 hm.2] at h; cases h

end SetEvents

theorem enableRead_eq (ch : Channel) :
    ch.enableRead = .ok (ch.setEvents (ch.events ∪ {.epollin, .epollpri}),
      ch.ctl (ch.events ∪ {.epollin, .epollpri})) :=
  update_eq (.inl (by simp))

theorem enableWrite_eq (ch : Channel) :
    ch.enableWrite = .ok (ch.setEvents (ch.events ∪ {.epollout}),
      ch.ctl (ch.events ∪ {.epollout})) :=
  update_eq (.inl (by simp))

theorem disableRead_eq (h : ch.polling = true) :
    ch.disableRead = .ok (ch.setEvents (ch.events \ {.epollin}),
      ch.ctl (ch.events \ {.epollin})) :=
  update_eq (.inr h)

theorem disableWrite_eq (h : ch.polling = true) :
    ch.disableWrite = .ok (ch.setEvents (ch.events \ {.epollout}),
      ch.ctl (ch.events \ {.epollout})) :=
  update_eq (.inr h)

theorem disableAll_eq (h : ch.polling = true) :
    ch.disableAll = .ok (ch.setEvents ∅, ch.ctl ∅) :=
  update_eq (.inr h)

/-- The interest list agrees with the channel: present exactly if polling, with its mask, and
polling exactly if there are events. -/
def Synced (ch : Channel) (k : Interest) : Prop :=
  k ch.fd = (if ch.polling then some ch.events else none) ∧ (ch.polling = true ↔ ch.events ≠ ∅)

theorem new_synced (fd : Fd) (h : k fd = none) : (Channel.new fd).Synced k := by
  simp [Synced, Channel.new, h]

/-- An update brings the interest list in line with the channel. -/
theorem setEvents_synced (m : Mask) (hs : ch.Synced k) :
    (ch.setEvents m).Synced ((ch.ctl m).apply k) := by
  obtain ⟨hk, -⟩ := hs
  by_cases hm : m = ∅
  · cases hp : ch.polling <;> simp [Synced, EpollCtl.apply, ctl, hm, hp, hk]
  · cases hp : ch.polling <;> simp [Synced, EpollCtl.apply, ctl, hm, hp, hk]

/-- An update leaves the other descriptors of the interest list alone. -/
theorem ctl_other (m : Mask) (k : Interest) {fd : Fd} (hfd : fd ≠ ch.fd) :
    (ch.ctl m).apply k fd = k fd :=
  EpollCtl.apply_other k _ hfd

end Channel
end Leven
