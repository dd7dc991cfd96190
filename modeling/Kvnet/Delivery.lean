import Kvnet.Flow

/-!
# From the network stack to the readers

No packet is delivered twice, and one that no other thread writes into while it
is being filled is delivered as it was sent. One reader at a time delivers the
packets in the order of their insertion.
-/

namespace Kvnet

/-- The queue holds the last packets of those sent; those before are in readers'
hands, delivered, or lost. -/
structure Carries (f : Flow) (xs : List Addr) : Prop where
  length : f.sent.length = f.sys.removed.length + xs.length
  queued : xs.map f.number = List.range' f.sys.removed.length xs.length
  carried : ∀ x, x ∈ xs ∨ x ∈ f.sys.held → f.sent[f.number x]? = some (f.sys.payload x)
  held : ∀ x ∈ f.sys.held, f.number x < f.sys.removed.length
  distinct : ∀ x ∈ f.sys.held, ∀ y ∈ f.sys.held, f.number x = f.number y → x = y
  pending : ∀ x ∈ f.sys.filling, ∀ d ∈ f.delivered, d.number ≠ f.number x
  once : (f.delivered.map Delivery.number).Nodup
  taken : ∀ d ∈ f.delivered, d.number < f.sys.removed.length

/-- What is delivered was sent. -/
theorem Carries.numbered {f : Flow} {xs : List Addr} (h : Carries f xs) :
    ∀ d ∈ f.delivered, d.number < f.sent.length := by
  intro d hd
  have before := h.taken d hd
  rw [h.length]
  omega

/-- What is being copied is in place so far, and what was delivered is what was
sent, cut to the room there was. -/
structure Intact (f : Flow) : Prop where
  copied : ∀ r ∈ f.sys.readers, ∀ skb, r.filling = some skb →
    (f.progress skb).Holds f.sys.world.user r.pkt (f.sys.payload skb)
  delivered : ∀ d ∈ f.delivered, ∃ data, f.sent[d.number]? = some data ∧
    d.bytes = data.take (min (UInt32.ofNat data.length) d.room).toNat

theorem Reader.held_of_filling {r : Reader} {skb : Addr} (fills : r.filling = some skb) :
    r.held = some skb := by
  cases pc : r.pc with
  | fill skb' => simpa only [Reader.filling, Reader.held, pc] using fills
  | remove | free skb failed | report => simp [Reader.filling, pc] at fills

theorem Sys.held_of_filling {s : Sys} {x : Addr} (fills : x ∈ s.filling) : x ∈ s.held := by
  obtain ⟨r, hr, fills⟩ := List.mem_filterMap.mp fills
  exact List.mem_filterMap.mpr ⟨r, hr, Reader.held_of_filling fills⟩

theorem Sys.filling_of_pc {s : Sys} {k : Nat} {r : Reader} {skb : Addr}
    (found : s.readers[k]? = some r) (pc : r.pc = .fill skb) : skb ∈ s.filling :=
  List.mem_filterMap.mpr ⟨r, List.mem_of_getElem? found, by simp only [Reader.filling, pc]⟩

theorem fresh_carries {f : Flow} (fresh : f.Fresh) : Carries f [] := by
  have nobody : f.sys.held = [] := by
    rw [Sys.held, fresh.sys.readers]
    rfl
  have idle : f.sys.filling = [] := by
    rw [Sys.filling, fresh.sys.readers]
    rfl
  refine ⟨?_, rfl, ?_, ?_, ?_, ?_, ?_, ?_⟩
  · rw [fresh.sent, fresh.sys.removed]
    rfl
  · simp [nobody]
  · simp [nobody]
  · simp [nobody]
  · simp [idle]
  · simp [fresh.delivered]
  · simp [fresh.delivered]

theorem fresh_intact {f : Flow} (fresh : f.Fresh) : Intact f := by
  refine ⟨?_, ?_⟩
  · simp [fresh.sys.readers]
  · simp [fresh.delivered]

section Carries

variable {f g : Flow} {xs ys : List Addr} {live : Addr → Bool} {k : Nat} {r : Reader} {skb : Addr}

theorem still_carries (h : Carries f (xs ++ ys))
    (removed : g.sys.removed.length = f.sys.removed.length + xs.length)
    (records : g = { f with sys := g.sys })
    (payload : ∀ x, x ∈ ys ∨ x ∈ g.sys.held → g.sys.payload x = f.sys.payload x)
    (held : g.sys.held ⊆ f.sys.held) (filling : g.sys.filling ⊆ f.sys.filling) :
    Carries g ys := by
  have sent : g.sent = f.sent := by rw [records]
  have number : g.number = f.number := by rw [records]
  have delivered : g.delivered = f.delivered := by rw [records]
  refine ⟨?_, ?_, fun x place => ?_, fun x hx => ?_, ?_, ?_, ?_, fun d hd => ?_⟩
  · rw [sent, removed, h.length, List.length_append, Nat.add_assoc]
  · have queued := h.queued
    rw [List.map_append, List.length_append, ← List.range'_append_1] at queued
    rw [number, removed]
    exact (List.append_inj queued (by rw [List.length_map, List.length_range'])).2
  · rw [sent, number, payload x place]
    exact h.carried x (place.imp (fun queued => List.mem_append_right xs queued) fun hx => held hx)
  · have before := h.held x (held hx)
    rw [number]
    omega
  · rw [number]
    exact fun x hx y hy => h.distinct x (held hx) y (held hy)
  · rw [number, delivered]
    exact fun x hx => h.pending x (filling hx)
  · rw [delivered]
    exact h.once
  · rw [delivered] at hd
    have before := h.taken d hd
    omega

/-- The buffer being handed over is nowhere else. -/
theorem handed_apart (owned : Owned f.sys xs live) (handed : skb ∈ f.sys.handing) {x : Addr}
    (place : x ∈ xs ∨ x ∈ f.sys.held) : x ≠ skb := by
  rintro rfl
  have one := owned.one_place x
  have there : 0 < f.sys.handing.count x := List.count_pos_iff.mpr handed
  rcases place with queued | inHand
  · have := List.count_pos_iff.mpr queued
    omega
  · have : 0 < f.sys.held.count x := List.count_pos_iff.mpr inHand
    omega

theorem accept_carries (owned : Owned f.sys xs live) (h : Carries f xs)
    (handed : skb ∈ f.sys.handing) (removed : g.sys.removed = f.sys.removed)
    (records : g = { f with
      sys := g.sys
      sent := f.sent ++ [f.sys.payload skb]
      number := Function.update f.number skb f.sent.length })
    (payload : ∀ x, g.sys.payload x = f.sys.payload x)
    (readers : g.sys.readers = f.sys.readers) : Carries g (xs ++ [skb]) := by
  have sent : g.sent = f.sent ++ [f.sys.payload skb] := by rw [records]
  have number : g.number = Function.update f.number skb f.sent.length := by rw [records]
  have delivered : g.delivered = f.delivered := by rw [records]
  have held : g.sys.held = f.sys.held := congrArg (List.filterMap Reader.held) readers
  have filling : g.sys.filling = f.sys.filling := congrArg (List.filterMap Reader.filling) readers
  have kept {x : Addr} (place : x ∈ xs ∨ x ∈ f.sys.held) : g.number x = f.number x := by
    rw [number, Function.update_of_ne (handed_apart owned handed place)]
  have new : g.number skb = f.sent.length := by rw [number, Function.update_self]
  refine ⟨?_, ?_, fun x place => ?_, fun x hx => ?_, fun x hx y hy eq => ?_, fun x hx => ?_, ?_,
    ?_⟩
  · rw [sent, removed, List.length_append, List.length_append, h.length, Nat.add_assoc]
    rfl
  · rw [List.map_append, List.map_singleton, new, removed, List.length_append,
      List.length_singleton, List.range'_1_concat, ← h.queued, ← h.length]
    exact congrArg (· ++ _) (List.map_congr_left fun x hx => kept (Or.inl hx))
  · rw [held] at place
    rw [sent, payload x]
    have cases : x = skb ∨ x ∈ xs ∨ x ∈ f.sys.held := by
      rcases place with queued | inHand
      · rcases List.mem_append.mp queued with old | last
        · exact Or.inr (Or.inl old)
        · exact Or.inl (List.mem_singleton.mp last)
      · exact Or.inr (Or.inr inHand)
    rcases cases with rfl | old
    · rw [new, List.getElem?_concat_length]
    · have carried := h.carried x old
      rw [kept old, List.getElem?_append_left (List.getElem?_eq_some_iff.mp carried).1]
      exact carried
  · rw [held] at hx
    rw [kept (Or.inr hx), removed]
    exact h.held x hx
  · rw [held] at hx hy
    rw [kept (Or.inr hx), kept (Or.inr hy)] at eq
    exact h.distinct x hx y hy eq
  · rw [filling] at hx
    rw [kept (Or.inr (Sys.held_of_filling hx)), delivered]
    exact h.pending x hx
  · rw [delivered]
    exact h.once
  · rw [delivered, removed]
    exact h.taken

/-- A buffer that is queued is in no reader's hands. -/
theorem queued_apart (owned : Owned f.sys (skb :: ys) live) {x : Addr} (hx : x ∈ f.sys.held) :
    x ≠ skb := by
  rintro rfl
  have one := owned.one_place x
  have inHand : 0 < f.sys.held.count x := List.count_pos_iff.mpr hx
  rw [List.count_cons_self] at one
  omega

theorem remove_carries (owned : Owned f.sys (skb :: ys) live) (h : Carries f (skb :: ys))
    (removed : g.sys.removed = f.sys.removed ++ [skb])
    (records : g = { f with
      sys := g.sys, progress := Function.update f.progress skb .getUser })
    (payload : ∀ x, g.sys.payload x = f.sys.payload x)
    (readers : g.sys.readers = f.sys.readers.set k { r with pc := .fill skb }) :
    Carries g ys := by
  have sent : g.sent = f.sent := by rw [records]
  have number : g.number = f.number := by rw [records]
  have delivered : g.delivered = f.delivered := by rw [records]
  have longer : g.sys.removed.length = f.sys.removed.length + 1 := by
    rw [removed, List.length_append, List.length_singleton]
  have held : g.sys.held ⊆ skb :: f.sys.held := by
    rw [Sys.held, readers]
    refine Pool.filterMap_set_subset (fun x own => ?_) (List.subset_cons_self _ _)
    obtain rfl := Option.some.inj own
    exact List.mem_cons_self
  have filling : g.sys.filling ⊆ skb :: f.sys.filling := by
    rw [Sys.filling, readers]
    refine Pool.filterMap_set_subset (fun x own => ?_) (List.subset_cons_self _ _)
    obtain rfl := Option.some.inj own
    exact List.mem_cons_self
  have queued := h.queued
  rw [List.map_cons, List.length_cons, List.range'_succ] at queued
  obtain ⟨first, rest⟩ := List.cons.inj queued
  refine ⟨?_, ?_, fun x place => ?_, fun x hx => ?_, fun x hx y hy eq => ?_,
    fun x hx d hd => ?_, ?_, fun d hd => ?_⟩
  · rw [sent, h.length, longer, List.length_cons]
    omega
  · rw [number, longer]
    exact rest
  · rw [sent, number, payload x]
    refine h.carried x ?_
    rcases place with queued | inHand
    · exact Or.inl (List.mem_cons_of_mem skb queued)
    · rcases List.mem_cons.mp (held inHand) with rfl | old
      · exact Or.inl List.mem_cons_self
      · exact Or.inr old
  · rw [number, longer]
    rcases List.mem_cons.mp (held hx) with rfl | old
    · omega
    · have before := h.held x old
      omega
  · rw [number] at eq
    rcases List.mem_cons.mp (held hx) with rfl | oldx
    · rcases List.mem_cons.mp (held hy) with rfl | oldy
      · rfl
      · have before := h.held y oldy
        omega
    · rcases List.mem_cons.mp (held hy) with rfl | oldy
      · have before := h.held x oldx
        omega
      · exact h.distinct x oldx y oldy eq
  · rw [delivered] at hd
    rw [number]
    rcases List.mem_cons.mp (filling hx) with rfl | old
    · have before := h.taken d hd
      omega
    · exact h.pending x old d hd
  · rw [delivered]
    exact h.once
  · rw [delivered] at hd
    have before := h.taken d hd
    omega

/-- The buffer a reader is filling from is in no other reader's hands. -/
theorem other_apart (owned : Owned f.sys xs live) (found : f.sys.readers[k]? = some r)
    (holds : r.held = some skb) {p : Reader} {x : Addr} (other : p ∈ f.sys.readers.eraseIdx k)
    (held : p.held = some x) : x ≠ skb := by
  rintro rfl
  have split := Pool.count_eraseIdx (f := Reader.held) found x
  have there : 0 < ((f.sys.readers.eraseIdx k).filterMap Reader.held).count x :=
    List.count_pos_iff.mpr (List.mem_filterMap.mpr ⟨p, other, held⟩)
  have one := owned.one_place x
  rw [holds, Option.toList_some, List.count_cons_self] at split
  change _ = f.sys.held.count x at split
  omega

/-- An access that is not the last one of its packet. -/
theorem access_carries (h : Carries f xs) {next : FillPc}
    (removed : g.sys.removed = f.sys.removed)
    (records : g = { f with sys := g.sys, progress := Function.update f.progress skb next })
    (payload : ∀ x, g.sys.payload x = f.sys.payload x)
    (readers : g.sys.readers = f.sys.readers) : Carries g xs := by
  have sent : g.sent = f.sent := by rw [records]
  have number : g.number = f.number := by rw [records]
  have delivered : g.delivered = f.delivered := by rw [records]
  have held : g.sys.held = f.sys.held := congrArg (List.filterMap Reader.held) readers
  have filling : g.sys.filling = f.sys.filling := congrArg (List.filterMap Reader.filling) readers
  have same : g.sys.payload = f.sys.payload := funext payload
  constructor
  · rw [sent, removed]
    exact h.length
  · rw [number, removed]
    exact h.queued
  · rw [sent, number, held, same]
    exact h.carried
  · rw [number, held, removed]
    exact h.held
  · rw [number, held]
    exact h.distinct
  · rw [number, filling, delivered]
    exact h.pending
  · rw [delivered]
    exact h.once
  · rw [delivered, removed]
    exact h.taken

/-- The reader that has filled a packet fills it no more, and no other has it. -/
theorem filled_once (owned : Owned f.sys xs live) (found : f.sys.readers[k]? = some r)
    (pc : r.pc = .fill skb)
    (readers : g.sys.readers = f.sys.readers.set k { r with pc := .free skb 0 }) {x : Addr}
    (hx : x ∈ g.sys.filling) : x ∈ f.sys.filling ∧ x ≠ skb := by
  obtain ⟨p, hp, fills⟩ := List.mem_filterMap.mp hx
  rw [readers] at hp
  rcases Pool.mem_set hp with rfl | other
  · cases fills
  · have holds : r.held = some skb := by rw [Reader.held, pc]
    refine ⟨List.mem_filterMap.mpr ⟨p, List.mem_of_mem_eraseIdx other, fills⟩, ?_⟩
    exact other_apart owned found holds other (Reader.held_of_filling fills)

theorem fill_carries (owned : Owned f.sys xs live) (h : Carries f xs) {d : Delivery}
    (found : f.sys.readers[k]? = some r) (pc : r.pc = .fill skb)
    (removed : g.sys.removed = f.sys.removed)
    (records : g = { f with sys := g.sys, delivered := f.delivered ++ [d] })
    (number : d.number = f.number skb) (payload : ∀ x, g.sys.payload x = f.sys.payload x)
    (readers : g.sys.readers = f.sys.readers.set k { r with pc := .free skb 0 }) :
    Carries g xs := by
  have sent : g.sent = f.sent := by rw [records]
  have numbers : g.number = f.number := by rw [records]
  have delivered : g.delivered = f.delivered ++ [d] := by rw [records]
  have same : g.sys.payload = f.sys.payload := funext payload
  have held : g.sys.held = f.sys.held := by
    rw [Sys.held, readers]
    exact Pool.filterMap_set found (by simp only [Reader.held, pc])
  have fills := Sys.filling_of_pc found pc
  have holds := Sys.held_of_filling fills
  refine ⟨?_, ?_, ?_, ?_, ?_, fun x hx d' hd' => ?_, ?_, fun d' hd' => ?_⟩
  · rw [sent, removed]
    exact h.length
  · rw [numbers, removed]
    exact h.queued
  · rw [sent, numbers, held, same]
    exact h.carried
  · rw [numbers, held, removed]
    exact h.held
  · rw [numbers, held]
    exact h.distinct
  · obtain ⟨before, other⟩ := filled_once owned found pc readers hx
    rw [delivered] at hd'
    rw [numbers]
    rcases List.mem_append.mp hd' with old | new
    · exact h.pending x before d' old
    · rw [List.mem_singleton.mp new, number]
      intro eq
      exact other (h.distinct x (Sys.held_of_filling before) skb holds eq.symm)
  · rw [delivered, List.map_append]
    refine List.nodup_append.mpr ⟨h.once, List.nodup_singleton _, ?_⟩
    rintro n hn _ new rfl
    obtain ⟨d', hd', rfl⟩ := List.mem_map.mp hn
    rw [List.map_singleton, List.mem_singleton, number] at new
    exact h.pending skb fills d' hd' new
  · rw [delivered] at hd'
    rw [removed]
    rcases List.mem_append.mp hd' with old | new
    · exact h.taken d' old
    · rw [List.mem_singleton.mp new, number]
      exact h.held skb holds

theorem effect_carries {a : FlowAction} (owned : Owned f.sys xs live) (h : Carries f xs)
    (effect : Flow.Effect f g xs ys a) : Carries g ys := by
  cases effect with
  | still gone split removed records payload held others filling kept one =>
    subst split
    refine still_carries h removed records payload held fun x hx => ?_
    obtain ⟨p, hp, fills⟩ := List.mem_filterMap.mp hx
    rcases filling p hp with idle | old
    · rw [idle] at fills
      cases fills
    · exact List.mem_filterMap.mpr ⟨p, old, fills⟩
  | accept skb handed grown removed records payload others readers =>
    subst grown
    exact accept_carries owned h handed removed records payload readers
  | remove k r skb found pc taken removed records payload others readers =>
    subst taken
    exact remove_carries owned h removed records payload readers
  | access k r skb next found pc same removed moved records payload others readers =>
    subst same
    exact access_carries h removed records payload readers
  | fill k r skb found pc same removed moved records payload others readers =>
    subst same
    exact fill_carries owned h found pc removed records rfl payload readers

end Carries

section Intact

variable {f g : Flow} {xs ys : List Addr} {live : Addr → Bool} {a : FlowAction}

/-- A copy in progress that the step does not move and does not write into. -/
theorem spared_holds {p : Reader} {skb : Addr} (h : Intact f) (reader : p ∈ f.sys.readers)
    (fills : p.filling = some skb)
    (spared : ∀ x ∈ f.target p, g.sys.world.user x = f.sys.world.user x)
    (progress : g.progress skb = f.progress skb)
    (payload : g.sys.payload skb = f.sys.payload skb) :
    (g.progress skb).Holds g.sys.world.user p.pkt (g.sys.payload skb) := by
  rw [progress, payload]
  refine (h.copied p reader skb fills).congr fun (x : Nat) above below => spared x ?_
  have inside : x - (p.pkt + 4) < (f.progress skb).len := Nat.sub_lt_left_of_lt_add above below
  simp only [Flow.target, fills]
  exact List.mem_map.mpr ⟨x - (p.pkt + 4), List.mem_range.mpr inside, Nat.add_sub_cancel' above⟩

/-- Deliveries of before, with more packets sent. -/
theorem delivered_mono {more : List (List UInt8)} (h : Intact f) :
    ∀ d ∈ f.delivered, ∃ data, (f.sent ++ more)[d.number]? = some data ∧
      d.bytes = data.take (min (UInt32.ofNat data.length) d.room).toNat := by
  intro d hd
  obtain ⟨data, sent, bytes⟩ := h.delivered d hd
  refine ⟨data, ?_, bytes⟩
  rw [List.getElem?_append_left (List.getElem?_eq_some_iff.mp sent).1]
  exact sent

theorem effect_intact (owned : Owned f.sys xs live)
    (carries : Carries f xs) (h : Intact f) (effect : Flow.Effect f g xs ys a)
    (spares : ∀ r ∈ f.others a, ∀ x ∈ f.target r,
      g.sys.world.user x = f.sys.world.user x) : Intact g := by
  cases effect with
  | still gone split removed records payload held others filling kept one =>
    have sent : g.sent = f.sent := by rw [records]
    have progress : g.progress = f.progress := by rw [records]
    have delivered : g.delivered = f.delivered := by rw [records]
    refine ⟨fun p hp skb fills => ?_, ?_⟩
    · have inHand : skb ∈ g.sys.held :=
        List.mem_filterMap.mpr ⟨p, hp, Reader.held_of_filling fills⟩
      rcases filling p hp with idle | old
      · rw [idle] at fills
        cases fills
      · exact spared_holds h old fills (spares p (others ▸ old)) (congrFun progress skb)
          (payload skb (Or.inr inHand))
    · rw [sent, delivered]
      exact h.delivered
  | accept skb handed grown removed records payload others readers =>
    have sent : g.sent = f.sent ++ [f.sys.payload skb] := by rw [records]
    have progress : g.progress = f.progress := by rw [records]
    have delivered : g.delivered = f.delivered := by rw [records]
    refine ⟨fun p hp x fills => ?_, ?_⟩
    · rw [readers] at hp
      exact spared_holds h hp fills (spares p (others ▸ hp)) (congrFun progress x) (payload x)
    · rw [sent, delivered]
      exact delivered_mono h
  | remove k r skb found pc taken removed records payload others readers =>
    have sent : g.sent = f.sent := by rw [records]
    have progress : g.progress = Function.update f.progress skb .getUser := by rw [records]
    have delivered : g.delivered = f.delivered := by rw [records]
    refine ⟨fun p hp x fills => ?_, ?_⟩
    · rw [readers] at hp
      rcases Pool.mem_set hp with rfl | other
      · obtain rfl : skb = x := Option.some.inj fills
        rw [progress, Function.update_self]
        exact FillPc.getUser_holds _ _ _
      · have old := List.mem_of_mem_eraseIdx other
        subst taken
        have inHand : x ∈ f.sys.held :=
          List.mem_filterMap.mpr ⟨p, old, Reader.held_of_filling fills⟩
        refine spared_holds h old fills (spares p (others ▸ old)) ?_ (payload x)
        rw [progress, Function.update_of_ne (queued_apart owned inHand)]
    · rw [sent, delivered]
      exact h.delivered
  | access k r skb next found pc same removed moved records payload others readers =>
    have sent : g.sent = f.sent := by rw [records]
    have progress : g.progress = Function.update f.progress skb next := by rw [records]
    have delivered : g.delivered = f.delivered := by rw [records]
    have holds : r.held = some skb := by rw [Reader.held, pc]
    refine ⟨fun p hp x fills => ?_, ?_⟩
    · rw [readers] at hp
      rcases Pool.mem_found found hp with rfl | other
      · obtain rfl : skb = x := Option.some.inj (holds.symm.trans (Reader.held_of_filling fills))
        rw [progress, Function.update_self, payload skb]
        exact fillNext_holds (h.copied p hp skb fills) moved
      · refine spared_holds h hp fills (spares p (others ▸ other)) ?_ (payload x)
        rw [progress, Function.update_of_ne]
        exact other_apart owned found holds other (Reader.held_of_filling fills)
    · rw [sent, delivered]
      exact h.delivered
  | fill k r skb found pc same removed moved records payload others readers =>
    have sent : g.sent = f.sent := by rw [records]
    have progress : g.progress = f.progress := by rw [records]
    have delivered : g.delivered = f.delivered ++ [f.delivery g.sys.world r.pkt skb] := by
      rw [records]
    have holds : r.held = some skb := by rw [Reader.held, pc]
    have fills : r.filling = some skb := by simp only [Reader.filling, pc]
    refine ⟨fun p hp x fills => ?_, fun d hd => ?_⟩
    · rw [readers] at hp
      rcases Pool.mem_set hp with rfl | other
      · cases fills
      · exact spared_holds h (List.mem_of_mem_eraseIdx other) fills
          (spares p (others ▸ other)) (congrFun progress x) (payload x)
    · rw [sent]
      rw [delivered] at hd
      rcases List.mem_append.mp hd with old | new
      · exact h.delivered d old
      · have copied := h.copied r (List.mem_of_getElem? found) skb fills
        have inHand := Sys.held_of_filling (Sys.filling_of_pc found pc)
        rw [List.mem_singleton.mp new]
        exact ⟨_, carries.carried skb (Or.inr inHand), fillNext_ends copied moved⟩

end Intact

/-- The packets delivered so far come in order, before the one in hand. -/
structure InOrder (f : Flow) : Prop where
  few : f.sys.readers.length ≤ 1
  sorted : (f.delivered.map Delivery.number).Pairwise (· < ·)
  next : ∀ x ∈ f.sys.filling, ∀ d ∈ f.delivered, d.number < f.number x

/-- None is missing. -/
structure Complete (f : Flow) : Prop where
  all : f.delivered.map Delivery.number = List.range f.delivered.length
  taken : f.sys.removed.length = f.delivered.length + f.sys.filling.length

theorem fresh_inOrder {f : Flow} (fresh : f.Fresh) : InOrder f := by
  refine ⟨?_, ?_, ?_⟩
  · simp [fresh.sys.readers]
  · simp [fresh.delivered]
  · simp [fresh.delivered]

theorem fresh_complete {f : Flow} (fresh : f.Fresh) : Complete f := by
  refine ⟨?_, ?_⟩
  · simp [fresh.delivered]
  · simp [fresh.delivered, fresh.sys.removed, Sys.filling, fresh.sys.readers]

/-- The only reader is the one at k. -/
theorem only_reader {f : Flow} {k : Nat} {r : Reader} (few : f.sys.readers.length ≤ 1)
    (found : f.sys.readers[k]? = some r) : f.sys.readers = [r] ∧ k = 0 := by
  have inside := (List.getElem?_eq_some_iff.mp found).1
  obtain rfl : k = 0 := by omega
  obtain ⟨p, hp⟩ := List.length_eq_one_iff.mp (show f.sys.readers.length = 1 by omega)
  rw [hp] at found ⊢
  obtain rfl := Option.some.inj found
  exact ⟨rfl, rfl⟩

section InOrder

variable {f g : Flow} {xs ys : List Addr} {live : Addr → Bool} {a : FlowAction}

theorem effect_inOrder (owned : Owned f.sys xs live) (carries : Carries f xs) (h : InOrder f)
    (one : f.oneReader a = true) (effect : Flow.Effect f g xs ys a) : InOrder g := by
  cases effect with
  | still gone split removed records payload held others filling kept alone =>
    rw [records]
    refine ⟨alone one h.few, h.sorted, fun x hx => ?_⟩
    obtain ⟨p, hp, fills⟩ := List.mem_filterMap.mp hx
    rcases filling p hp with idle | old
    · rw [idle] at fills
      cases fills
    · exact h.next x (List.mem_filterMap.mpr ⟨p, old, fills⟩)
  | accept skb handed grown removed records payload others readers =>
    have filling : g.sys.filling = f.sys.filling :=
      congrArg (List.filterMap Reader.filling) readers
    rw [records]
    refine ⟨readers ▸ h.few, h.sorted, fun x hx d hd => ?_⟩
    rw [filling] at hx
    have other := handed_apart owned handed (Or.inr (Sys.held_of_filling hx))
    have before := h.next x hx d hd
    rwa [← Function.update_of_ne other f.sent.length f.number] at before
  | remove k r skb found pc taken removed records payload others readers =>
    have alone := only_reader h.few found
    rw [alone.1, alone.2] at readers
    have filling : g.sys.filling = [skb] := by
      rw [Sys.filling, readers]
      rfl
    have queued := carries.queued
    rw [taken, List.map_cons, List.length_cons, List.range'_succ] at queued
    rw [records]
    refine ⟨by simp [readers], h.sorted, fun x hx d hd => ?_⟩
    rw [filling] at hx
    obtain rfl := List.mem_singleton.mp hx
    exact (List.cons.inj queued).1 ▸ carries.taken d hd
  | access k r skb next found pc same removed moved records payload others readers =>
    rw [records]
    refine ⟨readers ▸ h.few, h.sorted, fun x hx => h.next x ?_⟩
    rw [Sys.filling, readers] at hx
    exact hx
  | fill k r skb found pc same removed moved records payload others readers =>
    have alone := only_reader h.few found
    have fills := Sys.filling_of_pc found pc
    rw [alone.1, alone.2] at readers
    have filling : g.sys.filling = [] := by
      rw [Sys.filling, readers]
      rfl
    rw [records]
    refine ⟨by simp [readers], ?_, fun x hx => ?_⟩
    · simp only [List.map_append, List.map_singleton]
      refine List.pairwise_append.mpr ⟨h.sorted, List.pairwise_singleton _ _, ?_⟩
      intro n hn m hm
      obtain ⟨d, hd, rfl⟩ := List.mem_map.mp hn
      rw [List.mem_singleton.mp hm]
      exact h.next skb fills d hd
    · rw [filling] at hx
      cases hx

theorem effect_complete (carries : Carries f xs) (order : InOrder f) (h : Complete f)
    (all : f.lossless a = true) (effect : Flow.Effect f g xs ys a) : Complete g := by
  cases effect with
  | still gone split removed records payload held others filling kept alone =>
    obtain ⟨rfl, same⟩ := kept all
    rw [records]
    refine ⟨h.all, ?_⟩
    simp only [same, removed, h.taken, List.length_nil, Nat.add_zero]
  | accept skb handed grown removed records payload others readers =>
    have filling : g.sys.filling = f.sys.filling :=
      congrArg (List.filterMap Reader.filling) readers
    rw [records]
    refine ⟨h.all, ?_⟩
    simp only [filling, removed, h.taken]
  | remove k r skb found pc taken removed records payload others readers =>
    have alone := only_reader order.few found
    have before : f.sys.filling = [] := by simp [Sys.filling, alone.1, Reader.filling, pc]
    rw [alone.1, alone.2] at readers
    have after : g.sys.filling = [skb] := by
      rw [Sys.filling, readers]
      rfl
    have count := h.taken
    rw [before] at count
    rw [records]
    refine ⟨h.all, ?_⟩
    simp only [removed, after, List.length_append, List.length_singleton]
    exact congrArg (· + 1) count
  | access k r skb next found pc same removed moved records payload others readers =>
    have filling : g.sys.filling = f.sys.filling :=
      congrArg (List.filterMap Reader.filling) readers
    rw [records]
    refine ⟨h.all, ?_⟩
    simp only [filling, removed, h.taken]
  | fill k r skb found pc same removed moved records payload others readers =>
    have alone := only_reader order.few found
    have before : f.sys.filling = [skb] := by simp [Sys.filling, alone.1, Reader.filling, pc]
    rw [alone.1, alone.2] at readers
    have after : g.sys.filling = [] := by
      rw [Sys.filling, readers]
      rfl
    have fills := Sys.filling_of_pc found pc
    have count := h.taken
    rw [before, List.length_singleton] at count
    -- the packet in hand is the first one not delivered
    have below := carries.held skb (Sys.held_of_filling fills)
    have above : f.delivered.length ≤ f.number skb := by
      by_contra less
      have there : f.number skb ∈ f.delivered.map Delivery.number := by
        rw [h.all]
        exact List.mem_range.mpr (by omega)
      obtain ⟨d, hd, eq⟩ := List.mem_map.mp there
      exact carries.pending skb fills d hd eq
    have last : (f.delivery g.sys.world r.pkt skb).number = f.delivered.length := by
      change f.number skb = _
      omega
    rw [records]
    refine ⟨?_, ?_⟩
    · simp only [List.map_append, List.map_singleton, h.all, last, List.length_append,
        List.length_singleton, List.range_succ]
    · simp only [after, removed, count, List.length_append, List.length_singleton,
        List.length_nil, Nat.add_zero]

end InOrder

theorem step_carries {arch : Arch} {f g : Flow} {a : FlowAction}
    (h : ∃ xs live, Owned f.sys xs live ∧ Carries f xs) (moved : f.step arch a = some g) :
    ∃ xs live, Owned g.sys xs live ∧ Carries g xs := by
  obtain ⟨xs, live, owned, carries⟩ := h
  obtain ⟨ys, live', owned', effect⟩ := flow_effect owned moved
  exact ⟨ys, live', owned', effect_carries owned carries effect⟩

theorem step_intact {arch : Arch} {f g : Flow} {a : FlowAction}
    (h : (∃ xs live, Owned f.sys xs live ∧ Carries f xs) ∧ Intact f) (spares : f.Spares arch a)
    (moved : f.step arch a = some g) :
    (∃ xs live, Owned g.sys xs live ∧ Carries g xs) ∧ Intact g := by
  refine ⟨step_carries h.1 moved, ?_⟩
  obtain ⟨⟨xs, live, owned, carries⟩, intact⟩ := h
  obtain ⟨ys, live', owned', effect⟩ := flow_effect owned moved
  exact effect_intact owned carries intact effect (spares g moved)

theorem fresh_flow {f : Flow} (fresh : f.Fresh) :
    ∃ xs live, Owned f.sys xs live ∧ Carries f xs :=
  ⟨[], _, fresh_owned fresh.sys, fresh_carries fresh⟩

/-- A run that spares what is being copied delivers what was sent. -/
theorem run_intact {arch : Arch} {f₀ f : Flow} {actions : List FlowAction} (fresh : f₀.Fresh)
    (h : Execution.run (Flow.step arch) f₀ actions = some f)
    (spares : Execution.Meets (Flow.step arch) (Flow.Spares arch) f₀ actions) : Intact f :=
  (Execution.run_guarded_invariant
    (fun f => (∃ xs live, Owned f.sys xs live ∧ Carries f xs) ∧ Intact f)
    (fun _ _ _ => step_intact) ⟨fresh_flow fresh, fresh_intact fresh⟩ spares h).2

/-- In every interleaving, each packet is delivered at most once. When no thread
writes where another one's copy goes, what user memory holds of it then is what
the network stack sent, cut to the room there. -/
theorem delivered_once (arch : Arch) (f₀ f : Flow) (actions : List FlowAction) (fresh : f₀.Fresh)
    (h : Execution.run (Flow.step arch) f₀ actions = some f) :
    (f.delivered.map Delivery.number).Nodup ∧ (∀ d ∈ f.delivered, d.number < f.sent.length) ∧
    (Execution.Meets (Flow.step arch) (Flow.Spares arch) f₀ actions →
      ∀ d ∈ f.delivered, ∃ data, f.sent[d.number]? = some data ∧
        d.bytes = data.take (min (UInt32.ofNat data.length) d.room).toNat) := by
  obtain ⟨xs, live, _, carries⟩ := Execution.run_invariant
    (fun f => ∃ xs live, Owned f.sys xs live ∧ Carries f xs)
    (fun _ _ _ => step_carries) (fresh_flow fresh) h
  exact ⟨carries.once, carries.numbered, fun spares => (run_intact fresh h spares).delivered⟩

/-- A driver just loaded, with nothing sent. -/
def freshFlow : Flow := ⟨freshSys, fun _ => .getUser, [], fun _ => 0, []⟩

theorem freshFlow_fresh : freshFlow.Fresh := ⟨freshSys_fresh, rfl, rfl⟩

/-- Two packets are on the queue, the one sent last first. -/
def twoSent : List FlowAction :=
  [.driver .netDevOpen, .stackWrite 1 ⟨9, [0xaa, 0xab]⟩, .stackWrite 2 ⟨9, [0xba, 0xbb]⟩,
    .driver (.sendEnter 1), .driver (.sendEnter 2), .driver (.sendSection 1 256),
    .driver (.sendSection 0 256)]

/-- Two readers take them and copy by turns; the second has room for one byte. -/
def copiedByTurns : List FlowAction :=
  [.driver (.userStore (storeBytes (storeBytes (storeBytes (storeBytes (fun _ => 0)
      4096 (leBytes 4 1 ++ leBytes 8 8192)) 4352 (leBytes 4 1 ++ leBytes 8 12288))
      8192 (leBytes 4 100)) 12288 (leBytes 4 1)))] ++ twoSent ++
    [.driver (.readEnter [⟨4096, 12⟩] 12 ⟨true, false, fun _ => 0⟩),
      .driver (.readEnter [⟨4352, 12⟩] 12 ⟨true, false, fun _ => 0⟩),
      .driver (.readRemove 0), .driver (.readRemove 1)] ++
    [.fill 0, .fill 1, .fill 0, .fill 1, .fill 1, .fill 1, .fill 0, .fill 0, .fill 0]

theorem copiedByTurns_runs : (Execution.run (Flow.step lp64) freshFlow copiedByTurns).map
    (fun f => (f.sent, f.delivered)) = some ([[0xba, 0xbb], [0xaa, 0xab]],
      [⟨1, 1, [0xaa]⟩, ⟨0, 100, [0xba, 0xbb]⟩]) := by
  decide +kernel

theorem delivered_once_byTurns :
    ∃ f, Execution.run (Flow.step lp64) freshFlow copiedByTurns = some f ∧
      f.delivered.length = 2 ∧ (f.delivered.map Delivery.number).Nodup ∧
      ∀ d ∈ f.delivered, ∃ data, f.sent[d.number]? = some data ∧
        d.bytes = data.take (min (UInt32.ofNat data.length) d.room).toNat := by
  obtain ⟨f, runs, ended⟩ := Option.map_eq_some_iff.mp copiedByTurns_runs
  obtain ⟨_, delivered⟩ := Prod.mk.inj ended
  have once := delivered_once lp64 freshFlow f copiedByTurns freshFlow_fresh runs
  exact ⟨f, runs, by rw [delivered]; rfl, once.1, once.2.2 (by decide +kernel)⟩

/-- With one reader at a time the packets are delivered in the order they were
put on the queue; without faults and flushes none is missing but one the reader
has in hand and those still queued. -/
theorem delivered_in_order (arch : Arch) (f₀ f : Flow) (actions : List FlowAction)
    (fresh : f₀.Fresh) (h : Execution.run (Flow.step arch) f₀ actions = some f)
    (one : Execution.Meets (Flow.step arch) (fun f a => f.oneReader a = true) f₀ actions) :
    (f.delivered.map Delivery.number).Pairwise (· < ·) ∧
    (∀ d ∈ f.delivered, d.number < f.sent.length) ∧ f.sys.filling.length ≤ 1 ∧
    (Execution.Meets (Flow.step arch) (Flow.Spares arch) f₀ actions →
      ∀ d ∈ f.delivered, ∃ data, f.sent[d.number]? = some data ∧
        d.bytes = data.take (min (UInt32.ofNat data.length) d.room).toNat) ∧
    (Execution.Meets (Flow.step arch) (fun f a => f.lossless a = true) f₀ actions →
      f.delivered.map Delivery.number = List.range f.delivered.length ∧
      ∀ xs, Represents f.sys.world.mem f.sys.world.queue xs →
        f.sent.length = f.delivered.length + f.sys.filling.length + xs.length) := by
  have ordered : ∀ f a g, (∃ xs live, Owned f.sys xs live ∧ Carries f xs ∧ InOrder f) →
      f.oneReader a = true → f.step arch a = some g →
      ∃ xs live, Owned g.sys xs live ∧ Carries g xs ∧ InOrder g := by
    rintro f a g ⟨xs, live, owned, carries, order⟩ alone moved
    obtain ⟨ys, live', owned', effect⟩ := flow_effect owned moved
    exact ⟨ys, live', owned', effect_carries owned carries effect,
      effect_inOrder owned carries order alone effect⟩
  obtain ⟨xs, live, owned, carries, order⟩ := Execution.run_guarded_invariant _ ordered
    ⟨[], _, fresh_owned fresh.sys, fresh_carries fresh, fresh_inOrder fresh⟩ one h
  refine ⟨order.sorted, carries.numbered, Nat.le_trans (List.length_filterMap_le _ _) order.few,
    fun spares => (run_intact fresh h spares).delivered, fun all => ?_⟩
  obtain ⟨_, complete⟩ := Execution.run_guarded_invariant
    (fun f => (∃ xs live, Owned f.sys xs live ∧ Carries f xs ∧ InOrder f) ∧ Complete f)
    (fun f a g ⟨⟨xs, live, owned, carries, order⟩, complete⟩ ⟨alone, kept⟩ moved => by
      obtain ⟨_, _, _, effect⟩ := flow_effect owned moved
      exact ⟨ordered f a g ⟨xs, live, owned, carries, order⟩ alone moved,
        effect_complete carries order complete kept effect⟩)
    ⟨⟨[], _, fresh_owned fresh.sys, fresh_carries fresh, fresh_inOrder fresh⟩,
      fresh_complete fresh⟩ (Execution.meets_and one all) h
  refine ⟨complete.all, fun ys rep => ?_⟩
  obtain rfl := owned.represents.unique rep
  rw [carries.length, complete.taken]

/-- One read takes both. -/
def readTogether : List FlowAction :=
  [.driver (.userStore (storeBytes (storeBytes (storeBytes (fun _ => 0)
      4096 (leBytes 4 2 ++ leBytes 8 8192 ++ leBytes 8 12288)) 8192 (leBytes 4 100))
      12288 (leBytes 4 1)))] ++ twoSent ++
    [.driver (.readEnter [⟨4096, 20⟩] 20 ⟨true, false, fun _ => 0⟩), .driver (.readRemove 0)] ++
    List.replicate 5 (.fill 0) ++ [.driver (.readFree 0), .driver (.readRemove 0)] ++
    List.replicate 4 (.fill 0)

theorem readTogether_runs : (Execution.run (Flow.step lp64) freshFlow readTogether).map
    (fun f => (f.sent, f.delivered)) = some ([[0xba, 0xbb], [0xaa, 0xab]],
      [⟨0, 100, [0xba, 0xbb]⟩, ⟨1, 1, [0xaa]⟩]) := by
  decide +kernel

theorem delivered_in_order_together :
    ∃ f, Execution.run (Flow.step lp64) freshFlow readTogether = some f ∧
      f.sent.length = 2 ∧ f.delivered.map Delivery.number = List.range f.delivered.length := by
  obtain ⟨f, runs, ended⟩ := Option.map_eq_some_iff.mp readTogether_runs
  obtain ⟨sent, _⟩ := Prod.mk.inj ended
  obtain ⟨_, _, _, _, complete⟩ := delivered_in_order lp64 freshFlow f readTogether freshFlow_fresh
    runs (by decide +kernel)
  exact ⟨f, runs, by rw [sent]; rfl, (complete (by decide +kernel)).1⟩

end Kvnet
