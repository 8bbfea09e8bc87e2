import Upnp.Gena.Stream
import Upnp.Gena.Table

/-!
# The invariant of the eventing machine

SIDs are unique over the whole handle table, every job of a live subscription
finds its service again, and each live subscription has a `Stream`.
-/

namespace Upnp.Gena

open Upnp.Lib

namespace State

/-- The jobs, queued or running, that carry events of a subscription. -/
def jobsOf (s : State) (sid : CString) : Multiset Job := s.pool.filter (·.thread.sid = sid)

/-- The keys under which sends of a subscription were begun, oldest first. -/
def sentKeys (s : State) (sid : CString) : List Int := (s.sends.filter (·.1 = sid)).map (·.2)

end State

/-- The invariant. -/
structure Inv (s : State) : Prop where
  active : ∀ l svc, s.service l = some svc → svc.active = true
  nodup : ∀ l, ((s.subs l).map (·.sid)).Nodup
  disjoint : ∀ l l', l ≠ l' → ∀ a ∈ s.subs l, ∀ b ∈ s.subs l', a.sid ≠ b.sid
  known : ∀ l, ∀ a ∈ s.subs l, a.sid ∈ s.sids
  poolKnown : ∀ j ∈ s.pool, j.thread.sid ∈ s.sids
  sendsKnown : ∀ e ∈ s.sends, e.1 ∈ s.sids
  resolves : ∀ l, ∀ a ∈ s.subs l, ∀ j ∈ s.pool, j.thread.sid = a.sid → s.Resolves j.thread l
  stream : ∀ l, ∀ a ∈ s.subs l, ∃ m k, Stream a (s.jobsOf a.sid) (s.sentKeys a.sid) m k

namespace Inv

variable {s s' : State} {l : Loc} {svc svc' : ServiceInfo}

/-- A SID stands at one place only. -/
theorem loc_eq (hI : Inv s) {l l' : Loc} {a b : Subscription} (ha : a ∈ s.subs l)
    (hb : b ∈ s.subs l') (h : a.sid = b.sid) : l = l' := by
  by_contra hne
  exact hI.disjoint l l' hne a ha b hb h

/-- A step that neither adds a subscription nor moves one to another service. -/
theorem frame (hI : Inv s) (hactive : ∀ l svc, s'.service l = some svc → svc.active = true)
    (hnodup : ∀ l, ((s'.subs l).map (·.sid)).Nodup)
    (hsub : ∀ l, ∀ a' ∈ s'.subs l, ∃ a ∈ s.subs l, a.sid = a'.sid)
    (hsids : s'.sids = s.sids)
    (hres : ∀ l t, s'.subs l ≠ [] → s.Resolves t l → s'.Resolves t l)
    (hpool : ∀ j ∈ s'.pool, (∃ i ∈ s.pool, i.thread = j.thread) ∨
      ∃ l, (∃ a ∈ s.subs l, a.sid = j.thread.sid) ∧ s.Resolves j.thread l)
    (hsends : ∀ e ∈ s'.sends, e ∈ s.sends ∨ ∃ l, ∃ a ∈ s.subs l, a.sid = e.1)
    (hstream : ∀ l, ∀ a' ∈ s'.subs l,
      ∃ m k, Stream a' (s'.jobsOf a'.sid) (s'.sentKeys a'.sid) m k) : Inv s' where
  active := hactive
  nodup := hnodup
  disjoint l l' hne a' ha' b' hb' heq := by
    obtain ⟨a, ha, ha'⟩ := hsub l a' ha'
    obtain ⟨b, hb, hb'⟩ := hsub l' b' hb'
    exact hI.disjoint l l' hne a ha b hb (by rw [ha', hb', heq])
  known l a' ha' := by
    obtain ⟨a, ha, ha'⟩ := hsub l a' ha'
    rw [hsids, ← ha']
    exact hI.known l a ha
  poolKnown j hj := by
    rw [hsids]
    rcases hpool j hj with ⟨i, hi, ht⟩ | ⟨l, ⟨a, ha, hsid⟩, -⟩
    · exact ht ▸ hI.poolKnown i hi
    · exact hsid ▸ hI.known l a ha
  sendsKnown e he := by
    rw [hsids]
    rcases hsends e he with he | ⟨l, a, ha, hsid⟩
    · exact hI.sendsKnown e he
    · exact hsid ▸ hI.known l a ha
  resolves l a' ha' j hj heq := by
    have hne : s'.subs l ≠ [] := List.ne_nil_of_mem ha'
    obtain ⟨a, ha, ha'⟩ := hsub l a' ha'
    refine hres l _ hne ?_
    rcases hpool j hj with ⟨i, hi, ht⟩ | ⟨l', ⟨b, hb, hsid⟩, hr⟩
    · exact ht ▸ hI.resolves l a ha i hi (by rw [ht, heq, ha'])
    · rwa [hI.loc_eq ha hb (by rw [ha', hsid, heq])]
  stream := hstream

/-- A step that only removes subscriptions, and jobs of subscriptions that are gone. -/
theorem shrink (hI : Inv s) (hactive : ∀ l svc, s'.service l = some svc → svc.active = true)
    (hsub : ∀ l, (s'.subs l).Sublist (s.subs l)) (hsids : s'.sids = s.sids)
    (hsends : s'.sends = s.sends)
    (hres : ∀ l t, s'.subs l ≠ [] → s.Resolves t l → s'.Resolves t l)
    (hpool : s'.pool ≤ s.pool)
    (hjobs : ∀ l, ∀ a ∈ s'.subs l, s'.jobsOf a.sid = s.jobsOf a.sid) : Inv s' := by
  refine hI.frame hactive (fun l ↦ (hI.nodup l).sublist ((hsub l).map _))
    (fun l a ha ↦ ⟨a, (hsub l).subset ha, rfl⟩) hsids hres
    (fun j hj ↦ .inl ⟨j, Multiset.mem_of_le hpool hj, rfl⟩) (fun e he ↦ .inl (hsends ▸ he)) ?_
  intro l a ha
  rw [hjobs l a ha, State.sentKeys, hsends]
  exact hI.stream l a ((hsub l).subset ha)

/-- The invariant does not see the reference counts. -/
theorem congr (hI : Inv s) (ht : s'.handleTable = s.handleTable) (hp : s'.pool = s.pool)
    (hsids : s'.sids = s.sids) (hsends : s'.sends = s.sends) : Inv s' := by
  refine hI.shrink ?_ ?_ hsids hsends ?_ hp.le ?_
  · intro l svc h
    rw [State.service_congr ht] at h
    exact hI.active l svc h
  · intro l
    rw [State.subs_congr ht]
  · rintro l t - ⟨svc, h⟩
    exact ⟨svc, by rw [State.lookup_congr ht, h]⟩
  · intro l a _
    simp [State.jobsOf, hp]

end Inv

/-! ## Writes to one service -/

/-- The services of `s'` are those of `s` with the one at `l` replaced by `svc'`, which keeps its
id, its device and its activity. -/
structure Writes (s s' : State) (l : Loc) (svc svc' : ServiceInfo) : Prop where
  service : s.service l = some svc
  table : s'.handleTable = (s.setService l svc').handleTable
  serviceId : svc'.serviceId = svc.serviceId
  udn : svc'.udn = svc.udn
  active : svc'.active = svc.active

namespace Writes

variable {s s' : State} {l l' : Loc} {svc svc' : ServiceInfo}

theorem subs_eq (hw : Writes s s' l svc svc') :
    s'.subs l' = if l' = l then svc'.subscriptionList else s.subs l' := by
  rw [State.subs_congr hw.table, State.subs_setService hw.service]

theorem subs_self (hw : Writes s s' l svc svc') : s'.subs l = svc'.subscriptionList := by
  simp [hw.subs_eq]

theorem subs_ne (hw : Writes s s' l svc svc') (h : l' ≠ l) : s'.subs l' = s.subs l' := by
  simp [hw.subs_eq, h]

theorem allActive (hw : Writes s s' l svc svc') (hI : Inv s) :
    ∀ l svc, s'.service l = some svc → svc.active = true := by
  intro l' v hv
  rw [State.service_congr hw.table, State.service_setService hw.service] at hv
  split at hv
  · obtain rfl := Option.some.inj hv
    rw [hw.active]
    exact hI.active l svc hw.service
  · exact hI.active l' v hv

theorem resolves (hw : Writes s s' l svc svc') {t : NotifyThreadStruct}
    (hr : s.Resolves t l') : s'.Resolves t l' := by
  obtain ⟨v, hv⟩ := hr.setService hw.service hw.serviceId hw.udn
  exact ⟨v, by rw [State.lookup_congr hw.table, hv]⟩

/-- A write that keeps or removes nodes of the list. -/
theorem shrink (hw : Writes s s' l svc svc') (hI : Inv s)
    (hlist : svc'.subscriptionList.Sublist svc.subscriptionList) (hsids : s'.sids = s.sids)
    (hsends : s'.sends = s.sends) (hpool : s'.pool ≤ s.pool)
    (hjobs : ∀ l, ∀ a ∈ s'.subs l, s'.jobsOf a.sid = s.jobsOf a.sid) : Inv s' := by
  refine hI.shrink (hw.allActive hI) ?_ hsids hsends (fun l t _ hr ↦ hw.resolves hr) hpool hjobs
  intro l'
  rw [hw.subs_eq]
  split
  · rename_i h
    rwa [h, State.subs_eq hw.service]
  · exact List.Sublist.refl _

/-- A write that keeps or removes nodes and leaves each its SID, beside steps of the jobs of this
service. -/
theorem update (hw : Writes s s' l svc svc') (hI : Inv s)
    (hlist : (svc'.subscriptionList.map (·.sid)).Sublist (svc.subscriptionList.map (·.sid)))
    (hsids : s'.sids = s.sids)
    (hpool : ∀ j ∈ s'.pool, (∃ i ∈ s.pool, i.thread = j.thread) ∨
      (∃ a ∈ svc.subscriptionList, a.sid = j.thread.sid) ∧ s.Resolves j.thread l)
    (hsends : ∀ e ∈ s'.sends, e ∈ s.sends ∨ ∃ a ∈ svc.subscriptionList, a.sid = e.1)
    (hjobs : ∀ l' ≠ l, ∀ a ∈ s.subs l', s'.jobsOf a.sid = s.jobsOf a.sid ∧
      s'.sentKeys a.sid = s.sentKeys a.sid)
    (hstream : ∀ a' ∈ svc'.subscriptionList,
      ∃ m k, Stream a' (s'.jobsOf a'.sid) (s'.sentKeys a'.sid) m k) : Inv s' := by
  have hmem : ∀ a' ∈ svc'.subscriptionList, ∃ a ∈ svc.subscriptionList, a.sid = a'.sid := by
    intro a' ha'
    have : a'.sid ∈ svc.subscriptionList.map (·.sid) :=
      hlist.subset (List.mem_map_of_mem ha')
    simpa using this
  refine hI.frame (hw.allActive hI) ?_ ?_ hsids (fun l t _ hr ↦ hw.resolves hr) ?_ ?_ ?_
  · intro l'
    rw [hw.subs_eq]
    split
    · exact (State.subs_eq hw.service ▸ hI.nodup l).sublist hlist
    · exact hI.nodup l'
  · intro l' a' ha'
    rw [hw.subs_eq] at ha'
    split at ha'
    · rename_i h
      rw [h, State.subs_eq hw.service]
      exact hmem a' ha'
    · exact ⟨a', ha', rfl⟩
  · intro j hj
    refine (hpool j hj).imp_right fun h ↦ ⟨l, ?_, h.2⟩
    rw [State.subs_eq hw.service]
    exact h.1
  · intro e he
    refine (hsends e he).imp_right fun h ↦ ⟨l, ?_⟩
    rw [State.subs_eq hw.service]
    exact h
  · intro l' a' ha'
    rw [hw.subs_eq] at ha'
    split at ha'
    · exact hstream a' ha'
    · rename_i h
      rw [(hjobs l' h a' ha').1, (hjobs l' h a' ha').2]
      exact hI.stream l' a' ha'

/-- A step of one subscription and of its jobs. -/
theorem single (hw : Writes s s' l svc svc') (hI : Inv s) {sub : Subscription}
    (hsub : sub ∈ svc.subscriptionList)
    (hlist : svc'.subscriptionList.map (·.sid) = svc.subscriptionList.map (·.sid))
    (hothers : ∀ b ∈ svc'.subscriptionList, b.sid ≠ sub.sid → b ∈ svc.subscriptionList)
    (hsids : s'.sids = s.sids)
    (hpool : ∀ j ∈ s'.pool, (∃ i ∈ s.pool, i.thread = j.thread) ∨
      j.thread.sid = sub.sid ∧ s.Resolves j.thread l)
    (hsends : ∀ e ∈ s'.sends, e ∈ s.sends ∨ e.1 = sub.sid)
    (hjobs : ∀ sid ≠ sub.sid, s'.jobsOf sid = s.jobsOf sid ∧ s'.sentKeys sid = s.sentKeys sid)
    (hstream : ∀ m k, Stream sub (s.jobsOf sub.sid) (s.sentKeys sub.sid) m k →
      ∀ b ∈ svc'.subscriptionList, b.sid = sub.sid →
        ∃ m k, Stream b (s'.jobsOf b.sid) (s'.sentKeys b.sid) m k) : Inv s' := by
  have hat : ∀ {a}, a ∈ svc.subscriptionList ↔ a ∈ s.subs l := by simp [State.subs_eq hw.service]
  refine hw.update hI (hlist ▸ List.Sublist.refl _) hsids ?_ ?_ ?_ ?_
  · exact fun j hj ↦ (hpool j hj).imp_right fun h ↦ ⟨⟨sub, hsub, h.1.symm⟩, h.2⟩
  · exact fun e he ↦ (hsends e he).imp_right fun h ↦ ⟨sub, hsub, h.symm⟩
  · exact fun l' hl a ha ↦ hjobs _ (hI.disjoint l' l hl a ha sub (hat.mp hsub))
  · intro b hb
    by_cases hbs : b.sid = sub.sid
    · obtain ⟨m, k, h⟩ := hI.stream l sub (hat.mp hsub)
      exact hstream m k h b hb hbs
    · rw [(hjobs _ hbs).1, (hjobs _ hbs).2]
      exact hI.stream l b (hat.mp (hothers b hb hbs))

end Writes

end Upnp.Gena
