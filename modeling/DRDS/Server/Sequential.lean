import DRDS.Server.Registers
import Mathlib.Logic.Relation

/-! A server that handles its packets one at a time, over whole runs. -/
namespace DRDS.Server
open Go

/-- A packet is handled, or what else goes on goes on: goroutines that were started, the write
buffers, the outside. None of that touches the subscribers. -/
inductive Turn (g : Slice.Growth) (e : Env) (s : Server) : Server → Prop
  | packet (p : ServicePacket (Slice UInt8)) : Turn g e s (handlePkt g e p s).server
  | besides (handler : Handler) (publisherRegister : UInt16 → List UInt8) (sequence : UInt16)
      (world : World) : Turn g e s { s with handler, publisherRegister, sequence, world }

/-- A run, with the packets taken one at a time. -/
def Reaches (g : Slice.Growth) (e : Env) : Server → Server → Prop := Relation.ReflTransGen (Turn g e)

def NoSubscribers (s : Server) : Prop := ∀ id, s.subscriberRegister id = []

/-! ### What goroutines leave alone -/

theorem transmit_besides (e : Env) (dst : UInt8) (buf : List UInt8) (s : Server) :
    ∃ world, (s.transmit e dst buf).2 = { s with world } := by
  rcases transmit_cases e dst buf s with ⟨_, w, h, _⟩ | ⟨_, w, h, _⟩ <;>
  · rw [h]
    exact ⟨w, rfl⟩

theorem sendPkt_besides (e : Env) (dst priority : UInt8) (synt : UInt32) (flag : UInt8)
    (dataID : UInt16) (mat : List (List Float64)) (s : Server) :
    ∃ sequence world, (s.sendPkt e dst priority synt flag dataID mat).2 =
      { s with sequence, world } := by
  obtain ⟨world, h⟩ := transmit_besides e dst
    (toServiceBuf (dataPkt e s dst priority synt flag dataID mat)) s.numbered
  exact ⟨_, world, h⟩

theorem sendOpt_besides (e : Env) (dst priority : UInt8) (synt : UInt32)
    (service flag opt1 opt2 : UInt8) (s : Server) :
    ∃ sequence world, (s.sendOpt e dst priority synt service flag opt1 opt2).2 =
      { s with sequence, world } := by
  obtain ⟨world, h⟩ := transmit_besides e dst
    (toServiceBuf (optPkt e s dst priority synt service flag opt1 opt2)) s.numbered
  unfold sendOpt
  split
  all_goals
    rename_i heq
    rw [heq] at h
    obtain rfl := h
    exact ⟨_, world, rfl⟩

theorem publishRows_besides (id : UInt16) (synt physicalTime : UInt32) (rawData : Slice Float64)
    (col : ℕ) (rows : List ℕ) (s : Server) :
    ∃ handler, (publishRows id synt physicalTime rawData col rows s).2 = { s with handler } := by
  induction rows generalizing s with
  | nil => exact ⟨s.handler, rfl⟩
  | cons row rows ih =>
    unfold publishRows
    split
    · exact ⟨s.handler, rfl⟩
    · rename_i value _
      have hwrite : ∃ handler, (s.writeToBuffer id ⟨synt + .ofNat row, physicalTime,
          value.toList⟩).2 = { s with handler } := ⟨_, rfl⟩
      split
      all_goals
        rename_i heq
        rw [heq] at hwrite
        obtain ⟨handler, rfl⟩ := hwrite
      · exact ⟨handler, rfl⟩
      · obtain ⟨handler', h⟩ := ih { s with handler }
        exact ⟨handler', h⟩

/-- Whatever goroutine runs, it is no more than what goes on besides. -/
theorem Turn.run (g : Slice.Growth) (e : Env) (r : Routine) (s : Server) :
    Turn g e s (r.run e s).2 := by
  cases r with
  | send id time physicalTime rawData => exact .besides ..
  | sendPkt dst priority synt flag dataID mat =>
    obtain ⟨sequence, world, h⟩ := sendPkt_besides e dst priority synt flag dataID mat s
    change Turn g e s (s.sendPkt e dst priority synt flag dataID mat).2
    rw [h]
    exact .besides ..
  | publish id dst rows cols synt physicalTime rawData =>
    change Turn g e s (publishFrom _ e id dst rows cols synt physicalTime rawData s).2
    unfold publishFrom
    split_ifs
    · dsimp only
      split_ifs
      · obtain ⟨sequence, world, h⟩ := sendOpt_besides e dst Utils.priorityHight synt
          Utils.serResponse Utils.flagError Utils.reserved Utils.reserved (s.queryLastSynt e id).2
        rw [h]
        exact .besides ..
      · obtain ⟨handler, h⟩ := publishRows_besides id synt physicalTime rawData cols.toNat
          (List.range rows.toNat) (s.queryLastSynt e id).2
        rw [h]
        exact .besides ..
    · obtain ⟨sequence, world, h⟩ := sendOpt_besides e dst Utils.priorityHight synt
        Utils.serResponse Utils.flagSingle Utils.reserved Utils.reserved
        { s with publisherRegister := addClient s.publisherRegister id dst }
      dsimp only
      rw [h]
      exact .besides ..

/-! ### Subscribers -/

/-- Subscribers stay, and none is added twice. -/
structure Grows (s t : Server) : Prop where
  stays : ∀ id, s.subscriberRegister id ⊆ t.subscriberRegister id
  nodup : (∀ id, (s.subscriberRegister id).Nodup) → ∀ id, (t.subscriberRegister id).Nodup

theorem Grows.of_eq {s t : Server} (h : t.subscriberRegister = s.subscriberRegister) :
    Grows s t := by
  refine ⟨fun id => ?_, fun hs => ?_⟩
  · rw [h]
    exact List.Subset.refl _
  · rwa [h]

theorem Grows.refl (s : Server) : Grows s s := .of_eq rfl

theorem Grows.trans {s t u : Server} (h₁ : Grows s t) (h₂ : Grows t u) : Grows s u :=
  ⟨fun id => List.Subset.trans (h₁.stays id) (h₂.stays id), fun hs => h₂.nodup (h₁.nodup hs)⟩

theorem subscribe_grows (e : Env) (id : UInt16) (dst : UInt8) (synt : UInt32) (rate : UInt16)
    (s : Server) : Grows s (s.subscribe e id dst synt rate).2 := by
  have hreg := subscriberRegister_subscribe e id dst synt rate s
  cases hfound : s.isSubscriberRegistered id dst with
  | true =>
    rw [hfound] at hreg
    exact .of_eq hreg
  | false =>
    rw [hfound] at hreg
    simp only [Bool.false_eq_true, if_false] at hreg
    have hnew : dst ∉ s.subscriberRegister id := by
      rw [← Utils.uint8Contains_iff]
      exact Bool.eq_false_iff.mp hfound
    constructor
    · intro i
      rw [hreg, addClient_apply]
      split_ifs with hi
      · subst hi
        exact List.subset_append_left _ _
      · exact List.Subset.refl _
    · intro hs i
      rw [hreg, addClient_apply]
      split_ifs
      · have hnodup := (hs id).concat hnew
        rwa [List.concat_eq_append] at hnodup
      · exact hs i

theorem callLoop_grows {α : Type} {body : α → Server → Outcome × Server}
    (h : ∀ x s, Grows s (body x s).2) (xs : List α) (s : Server) :
    Grows s (callLoop body xs s).2 := by
  induction xs generalizing s with
  | nil => exact .refl s
  | cons x xs ih =>
    have hx := h x s
    unfold callLoop
    split
    · rename_i heq
      rw [heq] at hx
      exact hx.trans (ih _)
    · rename_i heq
      rwa [heq] at hx

theorem handlePkt_grows (g : Slice.Growth) (e : Env) (p : ServicePacket (Slice UInt8))
    (s : Server) : Grows s (handlePkt g e p s).server := by
  by_cases h : p.service = Utils.serSubscribe
  · rw [handlePkt_subscribe h]
    exact callLoop_grows (fun f s => subscribe_grows e f.dataID p.src p.simulinkTime f.timeDiff s)
      p.subpackets s
  · exact .of_eq (congrArg Prod.snd (registers_handlePkt g e s h))

theorem Turn.grows {g : Slice.Growth} {e : Env} {s t : Server} (h : Turn g e s t) : Grows s t := by
  cases h with
  | packet p => exact handlePkt_grows g e p s
  | besides => exact .of_eq rfl

theorem Reaches.grows {g : Slice.Growth} {e : Env} {s t : Server} (h : Reaches g e s t) :
    Grows s t := by
  induction h with
  | refl => exact .refl s
  | tail _ hstep ih => exact ih.trans hstep.grows

/-- With packets handled one at a time no client is registered twice for a data id. -/
theorem Reaches.nodup {g : Slice.Growth} {e : Env} {s₀ s : Server} (hs₀ : s₀.NoSubscribers)
    (h : Reaches g e s₀ s) (id : UInt16) : (s.subscriberRegister id).Nodup := by
  refine h.grows.nodup (fun i => ?_) id
  rw [hs₀ i]
  exact List.nodup_nil

end DRDS.Server
