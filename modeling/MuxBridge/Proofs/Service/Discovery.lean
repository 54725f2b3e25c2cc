/-
# Discovery reports what the host has reported

A listing yields exactly the entries of its reply, in their order and with their doubles, each of
them as a connection of the delegate that the listing has got. Looking for one connection is a
listing of which only the first connection with an identifier is kept: to the hosts, the slots and
all other operations the two are the same.

* `Listing.outcome_eq_ok`: when a listing yields connections, and which ones;
* `Service.told_run`: a listing ends with what its reply says, whatever else goes on;
* `Service.seek_run`: a service in which a connection is looked for goes on like the one in which
  all of them are listed instead;
* `Service.discovery`: the main result.
-/
import MuxBridge.Proofs.Service.Replies
import MuxBridge.Proofs.Service.Tenancy

namespace MuxBridge

/-! ## What a reply reports -/

/-- A reply reports entries: a success without a payload reports none. -/
def Response.Reports (r : Response) (es : List Entry) : Prop :=
  r.status = .ok ∧ (r.payload = none ∧ es = [] ∨ r.payload = some (.listConnections es))

/-- The entry of which a connection tells. -/
def Connection.entry (c : Connection) : Entry := ⟨c.id, c.owner⟩

namespace Listing

variable {d : Delegate} {es : List Entry} {cs : List Connection} {reply : Outcome Response}

/-- What a listing with a delegate comes to by its reply. -/
def outcome (d : Delegate) (reply : Outcome Response) : Outcome (List Connection) :=
  (conclude .start d reply).2

/-- The outcome of a listing depends on nothing but its delegate and its reply. -/
theorem conclude_eq_outcome (g : Gateway) (d : Delegate) (reply : Outcome Response) :
    (conclude g d reply).2 = outcome d reply := by
  unfold outcome conclude
  split
  · rfl
  · split <;> rfl

/-- The connections of entries are those that tell of them and have the delegate. -/
theorem eq_map_ofEntry_iff :
    cs = es.map (Connection.ofEntry d) ↔
      cs.map Connection.entry = es ∧ ∀ c ∈ cs, c.delegate = d := by
  constructor
  · rintro rfl
    refine ⟨?_, ?_⟩
    · rw [List.map_map]
      exact List.map_id es
    · intro c hc
      obtain ⟨e, -, rfl⟩ := List.mem_map.mp hc
      rfl
  · rintro ⟨rfl, hd⟩
    rw [List.map_map]
    refine Eq.symm ((List.map_congr_left ?_).trans (List.map_id cs))
    intro c hc
    rw [← hd c hc]
    rfl

/-- A listing yields connections exactly if its reply reports entries, and then those of them. -/
theorem outcome_eq_ok : outcome d reply = .ok cs ↔ ∃ r es, reply = .ok r ∧ r.Reports es ∧
    cs.map Connection.entry = es ∧ ∀ c ∈ cs, c.delegate = d := by
  constructor
  · intro h
    rcases reply with e | ⟨status, payload⟩
    · cases h
    · by_cases hstatus : status = .ok
      · subst hstatus
        rcases payload with _ | ⟨es⟩ | _ | _ | _
        · cases h
          exact ⟨_, [], rfl, ⟨rfl, .inl ⟨rfl, rfl⟩⟩, rfl, by simp⟩
        · have hcs := eq_map_ofEntry_iff.mp (Except.ok.inj h).symm
          exact ⟨_, es, rfl, ⟨rfl, .inr rfl⟩, hcs⟩
        · cases h
        · cases h
        · cases h
      · rw [outcome, conclude, Response.result_of_ne_ok hstatus] at h
        cases h
  · rintro ⟨⟨status, payload⟩, es, rfl, ⟨hstatus, hpayload⟩, hcs⟩
    obtain rfl : status = .ok := hstatus
    rw [eq_map_ofEntry_iff.mpr hcs]
    rcases hpayload with ⟨rfl, rfl⟩ | rfl
    · rfl
    · rfl

end Listing

/-! ## Listings and their replies -/

namespace Operation

variable {op : Operation} {g : Gateway} {resolved : Option Delegate} {sent : List Sending}
  {l : Listing} {reply : Outcome Response}

/-- A listing that takes its reply has got its delegate, and ends with what the reply says. -/
theorem told_of_reply? (h : op.Tracks resolved sent (.listing l))
    (hreply : l.reply? g = some reply) :
    ∃ d, ((Call.listing l).resolved? g).or resolved = some d ∧
      (l.resume g).2 = .ended (Listing.outcome d reply) := by
  cases l with
  | resolving r =>
    rcases hres : r.resume g .listing with ⟨g', r' | e | d⟩
    · simp [Listing.reply?, hres] at hreply
    · simp [Listing.reply?, hres] at hreply
    · simp only [Listing.reply?, hres] at hreply
      obtain ⟨g'', hresume⟩ := Listing.resumeTrip_of_reply (d := d) hreply
      refine ⟨d, ?_, ?_⟩
      · rw [Call.resolved?, Resolution.resolved?_of_ok hres]
        rfl
      · rw [Listing.resume_of_ok hres, ← Listing.conclude_eq_outcome g'']
        exact hresume
  | asking d trip =>
    obtain ⟨t, -, hresolved, -⟩ := h
    obtain ⟨g', hresume⟩ := Listing.resumeTrip_of_reply (d := d) hreply
    refine ⟨d, hresolved, ?_⟩
    rw [← Listing.conclude_eq_outcome g']
    exact hresume

/-- A listing that goes on without a reply yields no connections. -/
theorem reply?_of_ok {cs : List Connection} (h : (l.resume g).2 = .ended (.ok cs)) :
    l.reply? g ≠ none := by
  have htrip : ∀ (g : Gateway) d trip, (Listing.resumeTrip g d trip).2 = .ended (.ok cs) →
      (trip.resume g .listing).2.result? ≠ none := by
    intro g d trip h
    rcases hres : trip.resume g .listing with ⟨g', trip' | reply⟩
    · simp [Listing.resumeTrip, hres] at h
    · exact Option.some_ne_none reply
  cases l with
  | resolving r =>
    rcases hres : r.resume g .listing with ⟨g', r' | e | d⟩
    · rw [Listing.resume_of_waiting hres] at h
      cases h
    · rw [Listing.resume_of_error hres] at h
      cases h
    · rw [Listing.resume_of_ok hres] at h
      simp only [Listing.reply?, hres]
      exact htrip _ d _ h
  | asking d trip => exact htrip g d trip h

end Operation

/-- The operation that looks for a connection instead of listing all of them. -/
def Operation.seeking (id : ConnectionId) : Operation → Operation
  | .list i t timeout => .find i t timeout id
  | op => op

/-- What is found of connections when one is looked for. -/
def Finding.sought (id : ConnectionId) : Finding → Finding
  | .yielded (.connections cs) => .found (Listing.find id cs)
  | f => f

/-- Changing an element that is there does not care for one that comes behind all others. -/
theorem modify_concat {α : Type} (f : α → α) (a : α) {l : List α} {n : Nat} (hn : n < l.length) :
    (l ++ [a]).modify n f = l.modify n f ++ [a] := by
  induction l generalizing n with
  | nil => cases hn
  | cons b l ih =>
    cases n with
    | zero => rfl
    | succ n => exact congrArg (b :: ·) (ih (Nat.lt_of_succ_lt_succ hn))

theorem modify_length_concat {α : Type} (f : α → α) (a : α) (l : List α) :
    (l ++ [a]).modify l.length f = l ++ [f a] := by
  induction l with
  | nil => rfl
  | cons b l ih => exact congrArg (b :: ·) ih

theorem Operation.finding_seeking (id : ConnectionId) (i : Nat) (t : Transport)
    (timeout : Option Duration) (y : Yield) :
    ((Operation.list i t timeout).seeking id).finding y
      = ((Operation.list i t timeout).finding y).sought id := by
  cases y <;> rfl

namespace Service

variable {g : Gateway} {s s' : Service} {n : Nat} {op : Operation} {call : Call}

/-- What has come of an operation that lists connections by the reply to it. -/
structure Told (s : Service) (n : Nat) (op : Operation) : Prop where
  replied : ∀ reply, s.replied n = some reply → ∃ d, s.resolved n = some d ∧
    s.ended n = some ((Listing.outcome d reply).map fun cs => op.finding (.connections cs))
  unheard : ∀ f, s.ended n = some (.ok f) → s.replied n ≠ none

/-- Every operation that lists connections ends with what its reply says. -/
def AllTold (s : Service) : Prop :=
  ∀ n op t, s.operations[n]? = some op → op.listsOver? = some t → s.Told n op

/-- Nothing happens to an operation of which all records stay as they are. -/
theorem Told.keep (h : s.Told n op) (hresolved : s'.resolved n = s.resolved n)
    (hreplied : s'.replied n = s.replied n) (hended : s'.ended n = s.ended n) : s'.Told n op := by
  constructor
  · rw [hreplied, hresolved, hended]
    exact h.replied
  · rw [hreplied, hended]
    exact h.unheard

theorem told_opening (g : Gateway) : (opening g).AllTold := by
  intro n op t hop
  cases hop

theorem told_enroll (h : s.AllTold) (hheard : s.Heard) (op : Operation) :
    (s.enroll op).AllTold := by
  have hturn := turnOf_enroll s op
  intro m op' t hop' ht
  by_cases hm : m = s.operations.length
  · subst hm
    obtain rfl : op = op' := by simpa [enroll] using hop'
    have hreplied : (s.enroll op).replied s.operations.length = none := hheard.fresh _ le_rfl
    constructor
    · intro reply hreply
      cases hreplied.symm.trans hreply
    · intro f hf
      rw [ended_enroll] at hf
      cases op with
      | list | find => cases hf
      | ensure | owningSession | work => cases ht
  · rw [hturn.operations m hm] at hop'
    exact (h m op' t hop' ht).keep rfl rfl (hturn.ended m hm)

/-- A listing that goes on is told by its reply, if it takes one. -/
theorem told_advance_self (hkept : s.Kept g) (hheard : s.Heard) (hop : s.operations[n]? = some op)
    (hcall : s.live n = some call) {t : Transport} (ht : op.listsOver? = some t) :
    (s.advance n).Told n op := by
  -- who is still under way has taken no reply
  have hnone : s.replied n = none := by
    by_contra hn
    rw [(hheard.heeds n).gone hn] at hcall
    cases hcall
  have htracks := (hkept.sound n op hop).tracks call hcall
  obtain ⟨l, rfl⟩ : ∃ l, call = .listing l := by
    cases call with
    | listing l => exact ⟨l, rfl⟩
    | resolution r =>
      obtain ⟨⟨i, timeout, rfl⟩, -⟩ := htracks
      cases ht
    | dispatch d =>
      obtain ⟨rfl, -⟩ := htracks
      cases ht
    | roundTrip | rest => exact htracks.elim
  have hreplied := replied_advance hop hcall hnone
  have hended := ended_advance hop hcall
  constructor
  · intro reply hreply
    rw [hreplied] at hreply
    obtain ⟨d, hd, hresume⟩ := Operation.told_of_reply? htracks hreply
    refine ⟨d, ?_, ?_⟩
    · rw [resolved_advance hop hcall]
      exact hd
    · rw [hended, Call.resume_listing_of_ended hresume]
      cases Listing.outcome d reply <;> rfl
  · intro f hf
    rw [hreplied]
    rw [hended] at hf
    obtain ⟨o, ho, hf⟩ := Option.map_eq_some_iff.mp hf
    rcases hl : (l.resume s.gateway).2 with l' | e | cs
    · simp only [Call.resume, hl, Course.map] at ho
      cases ho
    · rw [Call.resume_listing_of_ended hl] at ho
      rw [← Option.some.inj ho] at hf
      cases hf
    -- connections come from nowhere but a reply
    · exact Operation.reply?_of_ok hl

theorem told_advance (h : s.AllTold) (hkept : s.Kept g) (hheard : s.Heard) (n : Nat) :
    (s.advance n).AllTold := by
  cases hcall : s.live n with
  | none => rwa [advance_of_none hcall]
  | some call =>
    obtain ⟨op, hop⟩ := hkept.exists_of_live hcall
    have hturn := turnOf_advance hop hcall
    intro m op' t hop' ht
    by_cases hm : m = n
    · subst hm
      obtain rfl : op = op' := by simpa [advance_eq hop hcall, hop] using hop'
      exact told_advance_self hkept hheard hop hcall ht
    · rw [hturn.operations m hm] at hop'
      exact (h m op' t hop' ht).keep (hturn.resolved m hm)
        (heard_of_others_advance hop hcall hm).1 (hturn.ended m hm)

theorem told_step (h : s.AllTold) (hkept : s.Kept g) (hheard : s.Heard) (o : Occurrence) :
    (s.step o).AllTold := by
  cases o with
  | begin op =>
    exact told_advance (told_enroll h hheard op) (kept_enroll hkept op) (heard_enroll hheard op) _
  | resume n => exact told_advance h hkept hheard n
  | abandon n =>
    cases hcall : s.live n with
    | none => simpa only [step, hcall] using h
    | some call =>
      simp only [step, hcall]
      exact fun m op t hop ht => (h m op t hop ht).keep rfl rfl rfl
  | register | reset | elapse | retune =>
    exact fun m op t hop ht => (h m op t hop ht).keep rfl rfl rfl

/-- A listing ends with what its reply says, whatever else goes on. -/
theorem told_run (h : s.AllTold) (hkept : s.Kept g) (hheard : s.Heard) (os : List Occurrence) :
    (s.run os).AllTold := by
  induction os generalizing s with
  | nil => exact h
  | cons o os ih =>
    exact ih (told_step h hkept hheard o) (kept_step hkept o) (heard_step hheard hkept o)

/-! ## Looking for one connection -/

/-- The services that differ in one operation only, which looks for a connection instead of listing
all of them. -/
def seek (s : Service) (n : Nat) (id : ConnectionId) : Service :=
  { s with
    operations := s.operations.modify n (Operation.seeking id)
    ended := setAt s.ended n ((s.ended n).map fun o => o.map (Finding.sought id)) }

section Seek

variable {id : ConnectionId} {i : Nat} {t : Transport} {timeout : Option Duration}

theorem seek_advance_of_ne {m : Nat} (hm : m ≠ n) :
    (s.seek n id).advance m = (s.advance m).seek n id := by
  have hop : (s.operations.modify n (Operation.seeking id))[m]? = s.operations[m]? := by
    simp [Ne.symm hm]
  unfold advance
  simp only [seek, hop]
  split
  · next op call _ _ =>
    simp only [Service.mk.injEq, true_and]
    funext k
    by_cases hk : k = n
    · subst hk
      simp [setAt, Ne.symm hm]
    · simp [setAt, hk]
  · rfl

/-- What is found is what is sought among the connections that are listed. -/
theorem seek_advance_self (hop : s.operations[n]? = some (.list i t timeout)) :
    (s.seek n id).advance n = (s.advance n).seek n id := by
  have hop' : (s.seek n id).operations[n]? = some (.find i t timeout id) := by
    simp [seek, hop, Operation.seeking]
  cases hcall : s.live n with
  | none =>
    rw [advance_of_none hcall, advance_of_none (show (s.seek n id).live n = none from hcall)]
  | some call =>
    -- the two operations make the same call and differ in what they make of its result
    have hended : ((call.resume s.gateway).2.result?.map fun o =>
          o.map (Operation.find i t timeout id).finding)
        = ((call.resume s.gateway).2.result?.map fun o =>
          o.map (Operation.list i t timeout).finding).map fun o => o.map (Finding.sought id) := by
      rw [Option.map_map]
      refine congrArg (Option.map · _) (funext fun o => ?_)
      rcases o with e | y
      · rfl
      · exact congrArg Except.ok (Operation.finding_seeking id i t timeout y)
    rw [advance_eq hop hcall, advance_eq hop' hcall]
    simp only [seek, hended, setAt_same, Service.mk.injEq, true_and]
    funext k
    by_cases hk : k = n
    · subst hk
      simp [setAt]
    · simp [setAt, hk]

theorem seek_advance (hop : s.operations[n]? = some (.list i t timeout)) (m : Nat) :
    (s.seek n id).advance m = (s.advance m).seek n id := by
  by_cases hm : m = n
  · subst hm
    exact seek_advance_self hop
  · exact seek_advance_of_ne hm

theorem seek_enroll (hn : n < s.operations.length) (op : Operation) :
    (s.seek n id).enroll op = (s.enroll op).seek n id := by
  have hlength : (s.operations.modify n (Operation.seeking id)).length = s.operations.length :=
    List.length_modify _ _ _
  simp only [enroll, seek, hlength, Service.mk.injEq, true_and]
  refine ⟨?_, ?_⟩
  · exact (modify_concat _ op hn).symm
  · funext k
    by_cases hk : k = n
    · subst hk
      simp [setAt, hn.ne]
    · simp [setAt, hk]

theorem seek_step (hop : s.operations[n]? = some (.list i t timeout)) (o : Occurrence) :
    (s.seek n id).step o = (s.step o).seek n id := by
  have hn : n < s.operations.length := (List.getElem?_eq_some_iff.mp hop).1
  cases o with
  | begin op =>
    have hlength : (s.seek n id).operations.length = s.operations.length :=
      List.length_modify _ _ _
    have hop' : (s.enroll op).operations[n]? = some (.list i t timeout) := by
      rw [(turnOf_enroll s op).operations n hn.ne]
      exact hop
    simp only [step, hlength, seek_enroll hn]
    exact seek_advance hop' _
  | resume m => exact seek_advance hop m
  | abandon m =>
    cases hcall : s.live m with
    | none => simp only [step, hcall, show (s.seek n id).live m = none from hcall]
    | some call =>
      simp only [step, hcall, show (s.seek n id).live m = some call from hcall]
      rfl
  | register | reset | elapse | retune => rfl

theorem operations_advance (s : Service) (m : Nat) : (s.advance m).operations = s.operations := by
  unfold advance
  split <;> rfl

/-- An operation that has begun stays what it is. -/
theorem operation_step (hop : s.operations[n]? = some op) (o : Occurrence) :
    (s.step o).operations[n]? = some op := by
  cases o with
  | begin op' =>
    have hn : n < s.operations.length := (List.getElem?_eq_some_iff.mp hop).1
    rw [step, operations_advance, (turnOf_enroll s op').operations n hn.ne]
    exact hop
  | resume m =>
    rw [step, operations_advance]
    exact hop
  | abandon m =>
    simp only [step]
    split <;> exact hop
  | register | reset | elapse | retune => exact hop

theorem operation_run (hop : s.operations[n]? = some op) (os : List Occurrence) :
    (s.run os).operations[n]? = some op := by
  induction os generalizing s with
  | nil => exact hop
  | cons o os ih => exact ih (operation_step hop o)

/-- The services stay the same but for what is found of the connections that are listed. -/
theorem seek_run (hop : s.operations[n]? = some (.list i t timeout)) (os : List Occurrence) :
    (s.seek n id).run os = (s.run os).seek n id := by
  induction os generalizing s with
  | nil => rfl
  | cons o os ih =>
    have hrest := ih (operation_step hop o)
    rw [← seek_step hop] at hrest
    exact hrest

/-- To begin, looking for a connection is to list all of them. -/
theorem enroll_find (s : Service) (id : ConnectionId) (i : Nat) (t : Transport)
    (timeout : Option Duration) :
    s.enroll (.find i t timeout id)
      = (s.enroll (.list i t timeout)).seek s.operations.length id := by
  simp only [enroll, seek, modify_length_concat, Service.mk.injEq, true_and]
  refine ⟨rfl, rfl, rfl, rfl, ?_⟩
  funext k
  by_cases hk : k = s.operations.length
  · subst hk
    simp only [setAt_same]
    rfl
  · simp [setAt, hk]

theorem operation_begin (s : Service) (op : Operation) :
    (s.step (.begin op)).operations[s.operations.length]? = some op := by
  rw [step, operations_advance]
  simp [enroll]

/-- Looking for a connection in place of listing all of them changes nothing but what is found. -/
theorem seek_of_begin (s : Service) (id : ConnectionId) (i : Nat) (t : Transport)
    (timeout : Option Duration) (os : List Occurrence) :
    s.run (.begin (.find i t timeout id) :: os)
      = (s.run (.begin (.list i t timeout) :: os)).seek s.operations.length id := by
  have hop : (s.enroll (.list i t timeout)).operations[s.operations.length]?
      = some (.list i t timeout) := by simp [enroll]
  have hstep : s.step (.begin (.find i t timeout id))
      = (s.step (.begin (.list i t timeout))).seek s.operations.length id := by
    simp only [step, enroll_find]
    exact seek_advance hop _
  calc s.run (.begin (.find i t timeout id) :: os)
      = (s.step (.begin (.find i t timeout id))).run os := rfl
    _ = ((s.step (.begin (.list i t timeout))).run os).seek s.operations.length id := by
        rw [hstep, seek_run (operation_begin s _)]

end Seek

/-! ## The main result -/

/-- What is known of the operations that get a delegate from a slot after some time at which the
slot is not emptied any more. -/
structure Discovers (i : Nat) (s s' : Service) : Prop where
  /-- A listing yields connections exactly if it has got a delegate and a reply that reports
  entries, and then it yields those entries, each with that delegate. -/
  lists : ∀ n t timeout cs, s'.operations[n]? = some (.list i t timeout) →
    (s'.ended n = some (.ok (.yielded (.connections cs))) ↔
      ∃ d r es, s'.resolved n = some d ∧ s'.replied n = some (.ok r) ∧ r.Reports es ∧
        cs.map Connection.entry = es ∧ ∀ c ∈ cs, c.delegate = d)
  /-- Whatever becomes of an operation that has got a delegate meanwhile, that one is installed. -/
  installed : ∀ n d, s'.operations[n]?.bind Operation.slot? = some i → s.resolved n = none →
    s'.resolved n = some d → (s'.gateway.slots i).delegate = some d
  /-- The connections of all such listings share the delegate that is installed. -/
  shared : ∀ n t timeout cs, s'.operations[n]? = some (.list i t timeout) → s.resolved n = none →
    s'.ended n = some (.ok (.yielded (.connections cs))) →
      ∀ c ∈ cs, (s'.gateway.slots i).delegate = some c.delegate

/-- How looking for a connection compares with listing all of them. -/
structure Finds (n : Nat) (id : ConnectionId) (listed sought : Service) : Prop where
  gateway : sought.gateway = listed.gateway
  ledger : sought.ledger = listed.ledger
  fails : ∀ e, sought.ended n = some (.error e) ↔ listed.ended n = some (.error e)
  finds : ∀ f, sought.ended n = some (.ok f) ↔
    ∃ cs, listed.ended n = some (.ok (.yielded (.connections cs))) ∧
      f = .found (cs.find? fun c => c.id == id)
  misses : ∀ r es, sought.replied n = some (.ok r) → r.Reports es →
    (sought.ended n = some (.ok (.found none)) ↔ ∀ e ∈ es, e.connection ≠ id)

theorem discovers (hkept : s.Kept g) (hheard : s.Heard) (htold : s.AllTold) (hlodged : s.Lodged)
    {i : Nat} {os : List Occurrence} (hos : Occurrence.reset i ∉ os) :
    Discovers i s (s.run os) := by
  have hshares := shares_run (shares_refl i s) hlodged hkept hos
  have htold' := told_run htold hkept hheard os
  have hlists : ∀ n t timeout cs, (s.run os).operations[n]? = some (.list i t timeout) →
      ((s.run os).ended n = some (.ok (.yielded (.connections cs))) ↔
        ∃ d r es, (s.run os).resolved n = some d ∧ (s.run os).replied n = some (.ok r) ∧
          r.Reports es ∧ cs.map Connection.entry = es ∧ ∀ c ∈ cs, c.delegate = d) := by
    intro n t timeout cs hop
    have hn := htold' n _ t hop rfl
    constructor
    · intro hended
      obtain ⟨reply, hreply⟩ := Option.ne_none_iff_exists'.mp (hn.unheard _ hended)
      obtain ⟨d, hd, hended'⟩ := hn.replied reply hreply
      obtain ⟨cs', hcs', heq⟩ :=
        exists_of_map_eq_ok (Option.some.inj (hended'.symm.trans hended))
      cases heq
      obtain ⟨r, es, rfl, hreports, hcs⟩ := Listing.outcome_eq_ok.mp hcs'
      exact ⟨d, r, es, hd, hreply, hreports, hcs⟩
    · rintro ⟨d, r, es, hd, hreply, hreports, hcs⟩
      obtain ⟨d', hd', hended⟩ := hn.replied _ hreply
      obtain rfl : d' = d := Option.some.inj (hd'.symm.trans hd)
      rw [hended, Listing.outcome_eq_ok.mpr ⟨r, es, rfl, hreports, hcs⟩]
      rfl
  refine ⟨hlists, hshares, ?_⟩
  intro n t timeout cs hop hnone hended c hc
  obtain ⟨d, r, es, hd, -, -, -, hcs⟩ := (hlists n t timeout cs hop).mp hended
  rw [hcs c hc]
  exact hshares n d (by rw [hop]; rfl) hnone hd

theorem finds (hkept : s.Kept g) (hheard : s.Heard) (htold : s.AllTold) (i : Nat) (t : Transport)
    (timeout : Option Duration) (id : ConnectionId) (os : List Occurrence) :
    Finds s.operations.length id (s.run (.begin (.list i t timeout) :: os))
      (s.run (.begin (.find i t timeout id) :: os)) := by
  have hop : (s.run (.begin (.list i t timeout) :: os)).operations[s.operations.length]?
      = some (.list i t timeout) := operation_run (operation_begin s _) os
  have htold' := told_run htold hkept hheard (.begin (.list i t timeout) :: os) _ _ t hop rfl
  have hanswers := ((kept_run hkept (.begin (.list i t timeout) :: os)).sound _ _ hop).answers
  rw [seek_of_begin]
  generalize s.run (.begin (.list i t timeout) :: os) = listed at *
  have hsought : (listed.seek s.operations.length id).ended s.operations.length
      = (listed.ended s.operations.length).map fun o => o.map (Finding.sought id) :=
    setAt_same _ _ _
  refine ⟨rfl, rfl, ?_, ?_, ?_⟩
  · intro e
    rw [hsought]
    rcases listed.ended s.operations.length with _ | e' | f
    · simp
    · simp [Except.map]
    · simp [Except.map]
  · intro f
    rw [hsought]
    constructor
    · intro h
      obtain ⟨o, ho, hf⟩ := Option.map_eq_some_iff.mp h
      obtain ⟨f', rfl, rfl⟩ := exists_of_map_eq_ok hf
      -- a listing that is answered is answered with connections
      have hf' := hanswers f' ho
      rcases f' with y | c? | session
      · cases y with
        | connections cs => exact ⟨cs, ho, rfl⟩
        | delegate | achievement | response | rested => exact hf'.elim
      · exact hf'.elim
      · exact hf'.elim
    · rintro ⟨cs, hcs, rfl⟩
      rw [hcs]
      rfl
  · intro r es hreply hreports
    obtain ⟨d, hd, hended⟩ := htold'.replied _ hreply
    have houtcome : Listing.outcome d (.ok r) = .ok (es.map (Connection.ofEntry d)) :=
      Listing.outcome_eq_ok.mpr ⟨r, es, rfl, hreports, Listing.eq_map_ofEntry_iff.mp rfl⟩
    rw [hsought, hended, houtcome]
    simp only [Option.map_some, Except.map, Operation.finding, Finding.sought, Option.some.injEq,
      Except.ok.injEq, Finding.found.injEq, Listing.find, List.find?_eq_none, List.mem_map,
      forall_exists_index, and_imp, forall_apply_eq_imp_iff₂, beq_iff_eq]
    exact Iff.rfl

/-- **Discovery reports what the host has reported.** From any gateway on, whatever else goes on,
and as long as the slot is not emptied: a listing yields connections exactly if it gets a delegate
and a reply that reports entries, and then just those entries with the delegate that is installed in
the slot; one that fails after it has got the delegate leaves it there. Looking for a connection at
any time in place of listing all of them changes nothing but what is found: the same errors, and
otherwise the first of the connections that has the identifier. -/
theorem discovery (g : Gateway) (before during : List Occurrence) (i : Nat)
    (hreset : Occurrence.reset i ∉ during) :
    Discovers i ((opening g).run before) (((opening g).run before).run during) ∧
      ∀ t timeout id, Finds ((opening g).run before).operations.length id
        (((opening g).run before).run (.begin (.list i t timeout) :: during))
        (((opening g).run before).run (.begin (.find i t timeout id) :: during)) := by
  have hkept := kept_run (kept_opening g) before
  have hheard := heard_run (heard_opening g) (kept_opening g) before
  have htold := told_run (told_opening g) (kept_opening g) (heard_opening g) before
  have hlodged := lodged_run (lodged_opening g) (kept_opening g) before
  exact ⟨discovers hkept hheard htold hlodged hreset,
    fun t timeout id => finds hkept hheard htold i t timeout id during⟩

/-! ## A host that reports a connection twice -/

/-- The entries of a host that reports a connection twice. -/
def doubledEntries : List Entry := [⟨⟨"A"⟩, ⟨"s1"⟩⟩, ⟨⟨"B"⟩, ⟨"s2"⟩⟩, ⟨⟨"A"⟩, ⟨"s3"⟩⟩]

/-- Such a host, and slots with factories that have not run yet. -/
def doubled : Gateway :=
  { Gateway.start with
    hosts := fun _ => .fresh (.reporting doubledEntries) (some 0)
    slots := fun _ => ⟨some ⟨0, fun _ => ⟨0, false, .ok ⟨none, .empty⟩⟩⟩, none, .free⟩ }

/-- Both listings of such a host share the delegate that the first one has built, and of the two
connections with one identifier the first one is found. -/
theorem discovery_doubled :
    Occurrence.reset 0 ∉ [.begin (.list 0 default none), .begin (.list 0 default none)] ∧
    (∀ n < 2, ∃ cs, (((opening doubled).run
          [.begin (.list 0 default none), .begin (.list 0 default none)]).ended n
        = some (.ok (.yielded (.connections cs))) ∧ cs.map Connection.entry = doubledEntries ∧
      ∀ c ∈ cs, (((opening doubled).run [.begin (.list 0 default none),
        .begin (.list 0 default none)]).gateway.slots 0).delegate = some c.delegate)) ∧
    ((opening doubled).run [.begin (.find 0 default none ⟨"A"⟩), .begin (.list 0 default none),
        .begin (.list 0 default none)]).ended 0
      = some (.ok (.found (some ⟨⟨"A"⟩, ⟨"s1"⟩, ⟨0, default, .empty⟩⟩))) := by
  have hreset : Occurrence.reset 0 ∉
      [Occurrence.begin (.list 0 default none), .begin (.list 0 default none)] := by simp
  obtain ⟨hdiscovers, hfinds⟩ := discovery doubled [] _ 0 hreset
  refine ⟨hreset, ?_, ?_⟩
  · intro n hn
    have hcases : n = 0 ∨ n = 1 := by omega
    rcases hcases with rfl | rfl
    · exact ⟨_, rfl, rfl, hdiscovers.shared 0 _ _ _ rfl rfl rfl⟩
    · exact ⟨_, rfl, rfl, hdiscovers.shared 1 _ _ _ rfl rfl rfl⟩
  · exact ((hfinds default none ⟨"A"⟩).finds _).mpr ⟨_, rfl, rfl⟩

end Service

end MuxBridge
