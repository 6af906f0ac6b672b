import RoutedSession.Session.Events

namespace RoutedSession.EventChannel

/-- There is room for one more event, and somebody may still receive it. -/
def Accepts (channel : EventChannel) : Prop :=
  channel.receiver ≠ .dropped ∧ channel.held.length < channel.capacity

instance (channel : EventChannel) : Decidable channel.Accepts :=
  inferInstanceAs (Decidable (_ ∧ _))

theorem offer_of_accepts {channel : EventChannel} (haccepts : channel.Accepts) (event : Event) :
    channel.offer event = { channel with held := channel.held ++ [event] } :=
  if_pos haccepts

theorem offer_of_not_accepts {channel : EventChannel} (hfull : ¬ channel.Accepts) (event : Event) :
    channel.offer event = channel :=
  if_neg hfull

/-- There are no more events in a channel than it can hold. -/
def Fits (channel : EventChannel) : Prop :=
  channel.held.length ≤ channel.capacity

theorem fits_ofCapacity (capacity : Nat) : (ofCapacity capacity).Fits :=
  Nat.zero_le _

theorem Fits.not_accepts_iff {channel : EventChannel} (hfits : channel.Fits) :
    ¬ channel.Accepts ↔ channel.receiver = .dropped ∨ channel.held.length = channel.capacity := by
  rw [Fits] at hfits
  rw [Accepts, Decidable.not_and_iff_not_or_not, Decidable.not_not, Nat.not_lt]
  exact or_congr_right
    ⟨fun hfull => Nat.le_antisymm hfits hfull, fun hfull => Nat.le_of_eq hfull.symm⟩

theorem Fits.offer {channel : EventChannel} (hfits : channel.Fits) (event : Event) :
    (channel.offer event).Fits := by
  by_cases haccepts : channel.Accepts
  · rw [offer_of_accepts haccepts, Fits, List.length_append]
    exact haccepts.2
  · rw [offer_of_not_accepts haccepts]
    exact hfits

theorem capacity_offer (channel : EventChannel) (event : Event) :
    (channel.offer event).capacity = channel.capacity := by
  unfold EventChannel.offer
  split <;> rfl

theorem isClosed_offer (channel : EventChannel) (event : Event) :
    (channel.offer event).isClosed = channel.isClosed := by
  unfold EventChannel.offer
  split <;> rfl

/-- Events have at most been taken out, those first that were put in first. -/
structure Drains (before after : EventChannel) : Prop where
  capacity : after.capacity = before.capacity
  isClosed : after.isClosed = before.isClosed
  held : after.held <:+ before.held

theorem Drains.refl (channel : EventChannel) : channel.Drains channel :=
  ⟨rfl, rfl, List.suffix_refl _⟩

theorem Drains.trans {first middle last : EventChannel} (hfront : first.Drains middle)
    (hback : middle.Drains last) : first.Drains last :=
  ⟨hback.capacity.trans hfront.capacity, hback.isClosed.trans hfront.isClosed,
    hback.held.trans hfront.held⟩

theorem Drains.fits {before after : EventChannel} (hdrains : before.Drains after)
    (hfits : before.Fits) : after.Fits := by
  rw [Fits, hdrains.capacity]
  exact Nat.le_trans hdrains.held.length_le hfits

theorem drains_dropReceiver (channel : EventChannel) : channel.Drains channel.dropReceiver :=
  ⟨rfl, rfl, List.nil_suffix⟩

theorem drains_giveTo (channel : EventChannel) (receiver : EventReceiver) :
    channel.Drains (channel.giveTo receiver).2 := by
  unfold giveTo
  split <;> exact ⟨rfl, rfl, List.suffix_refl _⟩

theorem drains_take (channel : EventChannel) (limit : Nat) :
    channel.Drains (channel.take limit).2 :=
  ⟨rfl, rfl, List.drop_suffix _ _⟩

theorem drains_callBack (channel : EventChannel) : channel.Drains channel.callBack.2 := by
  unfold callBack
  dsimp only
  split
  · exact channel.drains_dropReceiver
  · exact ⟨rfl, rfl, List.nil_suffix⟩

end RoutedSession.EventChannel
