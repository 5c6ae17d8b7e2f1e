import TxnEngine.Proofs.Engine.Aborts
import TxnEngine.Proofs.Engine.Composition
import TxnEngine.Proofs.Manager.LettingGo

/-!
# What is left of a transaction that is run as a whole

An engine can run a body in a transaction of its own. It begins the transaction, hands it to the
body, and concludes it when the body is over. Nobody holds the transaction behind that, so nobody
can end it any more. But if the log does not answer the last request, the transaction stays active,
and is kept alive if it was.

Results:
* `hosts_requesting`: what holds of the transaction while its body runs.
* `letGo_conclude`: how it is left in the end.
* `transaction_letGo`: nothing is left running, unless the last request is refused.
* `not_forall_transaction_letGo`: a transaction that is left running.
-/

namespace TxnEngine

namespace Engine

open Program

open Manager (LetGo Parts Unattended)

variable {σ α : Type}

/-! ## What the engine keeps to -/

/-- The engine brings back nothing that was let go, if nothing begins and nothing is elevated. -/
theorem composed_letGo (id : TxnId) : Composed (σ := σ)
    (fun _ p => p.Alone (.ofInvariant (LetGo id))) fun _ p =>
      p.Alone (managing (.ofInvariant (LetGo id))) :=
  composed_managing (Manager.composed_letGo id) fun hf => alone_ofInvariant fun m h =>
    ⟨(hf m).2.1 ▸ h.inactive, (hf m).2.2 ▸ h.unregistered⟩

/-! ## Batches -/

section Batches

variable {t : Transaction} (hactive : t.isActive = true) (hpersisted : t.isPersisted = true)

include hactive hpersisted

theorem letGo_endBatch (permissive : Bool) (answer : Except Error BatchResult) (p : Pipeline)
    (e : Engine σ) : (endBatch t permissive answer p).Yields
      (fun t' e' => t'.isActive = false → LetGo t.id e'.manager) e := by
  -- a transaction that is still active was not let go
  have hstays {t' : Transaction} {e' : Engine σ} (hsame : t' = t) :
      t'.isActive = false → LetGo t.id e'.manager := fun hended => by
    rw [hsame, hactive] at hended
    cases hended
  unfold endBatch
  split
  · exact .behind fun _ _ => .pure (hstays rfl)
  · split
    · have hfail : (onManager (Manager.fail t)).Yields
          (fun ended e' => ended.2.isActive = false → LetGo t.id e'.manager) e := by
        unfold Yields
        rw [run_onManager]
        exact (Manager.parts_fail e.manager hactive hpersisted).letGo_of_ended hactive
      refine .seq hfail fun ended e' hended => ?_
      have hsame := yields_leavePipeline ended.2 permissive p e'
      obtain ⟨-, hmanager, -⟩ := aside_leavePipeline ended.2 permissive p e' trivial
      unfold Yields at hsame ⊢
      rw [← hsame, ← hmanager] at hended
      exact hended
    · exact hstays (yields_leavePipeline t permissive p e)

theorem letGo_submitWriteBatch [Substrate σ] (rows : List Mutation) (permissive : Bool)
    (tolerance : Int) (e : Engine σ) : (submitWriteBatch t rows permissive tolerance).Yields
      (fun answer e' => answer.2.isActive = false → LetGo t.id e'.manager) e := by
  have hstays {e' : Engine σ} : t.isActive = false → LetGo t.id e'.manager := fun hended => by
    rw [hactive] at hended
    cases hended
  unfold submitWriteBatch whenOpenFor
  refine .behind fun isOpen e => ?_
  split_ifs
  · refine .behind fun found e => ?_
    cases found with
    | error e => exact .pure hstays
    | ok p =>
      refine .behind fun submitted e => ?_
      exact .seq (letGo_endBatch hactive hpersisted permissive submitted.1 submitted.2 e)
        fun _ _ h => .pure h
  · exact .pure hstays

end Batches

/-! ## Bodies -/

/-- The requests that a body can make, and those that others can make meanwhile: no transaction
begins, and the engine is not shut down. -/
def Request.isInner : Request → Bool
  | begin | beginReadOnly | shutdown | manage .begin | manage .beginReadOnly => false
  | _ => true

theorem Request.isInner_cases {request : Request} (h : request.isInner = true) :
    request.isComposed = true ∨ ∃ k, request = .elevate k ∨ request = .manage (.elevate k) := by
  cases request with
  | manage inner =>
    cases inner with
    | elevate k => exact .inr ⟨k, .inr rfl⟩
    | begin | beginReadOnly => cases h
    | _ => exact .inl rfl
  | elevate k => exact .inr ⟨k, .inl rfl⟩
  | begin | beginReadOnly | shutdown => cases h
  | _ => exact .inl rfl

/-- A body that makes requests one after the other, each for the transaction as it is by then, and
ends in `result`. -/
def requesting [Substrate σ] (result : Except Error α) :
    List Request → Transaction → Program (Engine σ) (Except Error α × Transaction)
  | [], t => return (result, t)
  | request :: rest, t =>
    match request.program [t] with
    | none => requesting result rest t
    | some p => do
      let given ← p
      requesting result rest (given.getD t)

/-- What is asked for the first of one. -/
theorem getElem?_singleton_map {β γ : Type*} {f : β → γ} {b : β} {c : γ} {k : Nat}
    (h : [b][k]?.map f = some c) : k = 0 ∧ f b = c := by
  cases k with
  | zero => exact ⟨rfl, Option.some.inj h⟩
  | succ k => cases h

section Hosting

variable [Substrate σ] {e : Engine σ} {t : Transaction} {request : Request}
  {p : Program (Engine σ) (Option Transaction)}

/-- Whoever holds one transaction holds it behind a request, as it is given back. -/
theorem step_single (hinner : request.isInner = true) (hp : request.program [t] = some p) :
    (⟨e, [t]⟩ : Session σ).step request = ⟨(p.run e).2, [(p.run e).1.getD t]⟩ := by
  have hstep : (⟨e, [t]⟩ : Session σ).step request =
      ⟨(p.run e).2, Session.keep [t] request.owned? (p.run e).1⟩ := by
    simp only [Session.step, hp]
  rw [hstep]
  congr 1
  cases request with
  | begin | beginReadOnly | shutdown => cases hinner
  | elevate k | commit k | rollback k | write k rows permissive tolerance | read k loc stamp =>
    obtain ⟨rfl, rfl⟩ := getElem?_singleton_map hp
    simp [run_map, Session.keep, Request.owned?]
  | submit job | resolve | drop =>
    cases hp
    simp [run_map, Session.keep, Request.owned?]
  | manage inner =>
    obtain ⟨q, hq, rfl⟩ := Option.map_eq_some_iff.mp hp
    cases inner with
    | begin | beginReadOnly => cases hinner
    | elevate k | commit k | rollback k | fail k | isVisible k candidate =>
      obtain ⟨rfl, rfl⟩ := getElem?_singleton_map hq
      simp [run_map, run_onManager, Session.keep, Request.owned?, Manager.Request.owned?,
        Manager.Op.program, Manager.Reply.transaction?]
    | status id | settle id | renew id | receive | dispatch | work | setClock now | wait d =>
      cases hq
      simp [run_map, run_onManager, Session.keep, Request.owned?, Manager.Request.owned?,
        Manager.Op.program, Manager.Reply.transaction?]

/-- What holds of a transaction while its body runs: it has its record, and when it is ended it is
let go. -/
structure Hosts (e : Engine σ) (t : Transaction) : Prop where
  orderly : (⟨e, [t]⟩ : Session σ).Orderly
  isOpen : e.isOpen = true
  isPersisted : t.isPersisted = true
  letGo : t.isActive = false → LetGo t.id e.manager

omit [Substrate σ] in
/-- A request to transaction management that ends the transaction lets it go. -/
theorem letGo_of_managed {m : Manager} {inner : Manager.Request}
    {q : Program Manager Manager.Reply} (hactive : t.isActive = true)
    (hpersisted : t.isPersisted = true) (hcomposed : inner.isComposed = true)
    (hq : inner.program [t] = some q)
    (hended : ((q.run m).1.transaction?.getD t).isActive = false) : LetGo t.id (q.run m).2 := by
  -- what gives the transaction to no one leaves it as it was
  have hstays {m' : Manager} (hsame : (q.run m).1.transaction? = none) : LetGo t.id m' := by
    rw [hsame, Option.getD_none, hactive] at hended
    cases hended
  cases inner with
  | begin | beginReadOnly | elevate k => cases hcomposed
  | commit k =>
    obtain ⟨rfl, rfl⟩ := getElem?_singleton_map hq
    rw [Manager.Op.program, run_map] at hended ⊢
    exact (Manager.parts_commit m hactive hpersisted).letGo_of_ended hactive hended
  | rollback k =>
    obtain ⟨rfl, rfl⟩ := getElem?_singleton_map hq
    rw [Manager.Op.program, run_map] at hended ⊢
    exact (Manager.parts_rollback m hactive hpersisted).letGo_of_ended hactive hended
  | fail k =>
    obtain ⟨rfl, rfl⟩ := getElem?_singleton_map hq
    rw [Manager.Op.program, run_map] at hended ⊢
    exact (Manager.parts_fail m hactive hpersisted).letGo_of_ended hactive hended
  | isVisible k candidate =>
    obtain ⟨rfl, rfl⟩ := getElem?_singleton_map hq
    exact hstays (by rw [Manager.Op.program, run_map]; rfl)
  | status id | settle id | renew id | receive | dispatch | work | setClock now | wait d =>
    cases hq
    exact hstays (by simp only [Manager.Op.program, run_map, Manager.Reply.transaction?])

variable (h : Hosts e t)

include h

/-- Who has the record of its transaction ended has let it go. -/
theorem letGo_of_composed (hactive : t.isActive = true) (hcomposed : request.isComposed = true)
    (hp : request.program [t] = some p) (hended : ((p.run e).1.getD t).isActive = false) :
    LetGo t.id (p.run e).2.manager := by
  have hpersisted := h.isPersisted
  -- what gives the transaction to no one leaves it as it was
  have hstays {m : Manager} (hsame : (p.run e).1 = none) : LetGo t.id m := by
    rw [hsame, Option.getD_none, hactive] at hended
    cases hended
  cases request with
  | begin | beginReadOnly | elevate k | shutdown => cases hcomposed
  | commit k =>
    obtain ⟨rfl, rfl⟩ := getElem?_singleton_map hp
    have hfollows := follows_commit h.isOpen t
    rw [run_map, Option.getD_some, hfollows.answer] at hended
    rw [run_map, hfollows.manager]
    exact (Manager.parts_commit e.manager hactive hpersisted).letGo_of_ended hactive hended
  | rollback k =>
    obtain ⟨rfl, rfl⟩ := getElem?_singleton_map hp
    have hfollows := follows_whenOpenFor h.isOpen t (aside_retirePipeline t.id) (Manager.rollback t)
    unfold Engine.rollback at hended ⊢
    rw [run_map, Option.getD_some, hfollows.answer] at hended
    rw [run_map, hfollows.manager]
    exact (Manager.parts_rollback e.manager hactive hpersisted).letGo_of_ended hactive hended
  | write k rows permissive tolerance =>
    obtain ⟨rfl, rfl⟩ := getElem?_singleton_map hp
    rw [run_map, Option.getD_some] at hended
    rw [run_map]
    exact letGo_submitWriteBatch hactive hpersisted rows permissive tolerance e hended
  | read k loc stamp =>
    obtain ⟨rfl, rfl⟩ := getElem?_singleton_map hp
    exact hstays (congrArg Prod.fst (run_map _ _ e))
  | submit job | resolve | drop =>
    cases hp
    exact hstays (congrArg Prod.fst (run_map _ _ e))
  | manage inner =>
    obtain ⟨q, hq, rfl⟩ := Option.map_eq_some_iff.mp hp
    rw [run_map, run_onManager] at hended ⊢
    exact letGo_of_managed hactive hpersisted hcomposed hq hended

/-- Once the transaction is ended it is let go. -/
theorem letGo_of_request (hinner : request.isInner = true) (hp : request.program [t] = some p)
    (hended : ((p.run e).1.getD t).isActive = false) : LetGo t.id (p.run e).2.manager := by
  rcases Request.isInner_cases hinner with hcomposed | ⟨k, rfl | rfl⟩
  · cases hactive : t.isActive with
    | true => exact letGo_of_composed h hactive hcomposed hp hended
    | false =>
      exact ((composed_letGo t.id).program hp hcomposed e (h.letGo hactive)).1
  · obtain ⟨rfl, rfl⟩ := getElem?_singleton_map hp
    have hfollows : Follows ((Engine.elevate t).run e) (Manager.elevate t) e :=
      follows_whenOpenFor h.isOpen t (.pure ()) (Manager.elevate t)
    obtain ⟨hsame, hmanager⟩ := Manager.run_elevate_of_persisted h.isPersisted e.manager
    rw [run_map, Option.getD_some, hfollows.answer, hsame] at hended
    rw [run_map, hfollows.manager, hmanager]
    exact h.letGo hended
  · obtain ⟨q, hq, rfl⟩ := Option.map_eq_some_iff.mp hp
    obtain ⟨rfl, rfl⟩ := getElem?_singleton_map hq
    obtain ⟨hsame, hmanager⟩ := Manager.run_elevate_of_persisted h.isPersisted e.manager
    rw [run_map, run_onManager, Manager.Op.program, run_map] at hended ⊢
    simp only [Manager.Reply.transaction?, Option.getD_some, hsame] at hended
    simp only [hmanager]
    exact h.letGo hended

/-- The engine stays open. -/
theorem isOpen_of_request (hinner : request.isInner = true) (hp : request.program [t] = some p) :
    (p.run e).2.isOpen = true := by
  have hopenness : p.Alone openness := by
    rcases Request.isInner_cases hinner with hcomposed | ⟨k, rfl | rfl⟩
    · exact composed_openness.program hp hcomposed
    · obtain ⟨rfl, rfl⟩ := getElem?_singleton_map hp
      exact composed_openness.map _ (composed_openness.whenOpenFor t (openness_onManager _))
    · obtain ⟨q, -, rfl⟩ := Option.map_eq_some_iff.mp hp
      exact composed_openness.map _ (openness_onManager q)
  exact (hopenness e trivial).2.trans h.isOpen

/-- A request leaves the engine and the transaction as a body may find them. -/
theorem hosts_of_request (hinner : request.isInner = true) (hp : request.program [t] = some p) :
    Hosts (p.run e).2 ((p.run e).1.getD t) ∧ ((p.run e).1.getD t).id = t.id := by
  have hstep := step_single (e := e) hinner hp
  have horderly := Session.orderly_step h.orderly request
  obtain ⟨⟨inner, reply, hserves⟩, -, -⟩ := Session.serves_step h.orderly.truthful request
  obtain ⟨t', ht', hsucceeds⟩ := hserves.held_stays (i := 0) rfl
  rw [hstep] at horderly ht'
  obtain rfl : (p.run e).1.getD t = t' := Option.some.inj ht'
  have hid := hsucceeds.id_eq
  refine ⟨⟨horderly, isOpen_of_request h hinner hp, hsucceeds.isPersisted h.isPersisted,
    fun hended => ?_⟩, hid⟩
  rw [hid]
  exact letGo_of_request h hinner hp hended

/-- So does a whole body. -/
theorem hosts_requesting (result : Except Error α) {requests : List Request}
    (hinner : ∀ request ∈ requests, request.isInner = true) :
    let ended := (requesting result requests t : Program (Engine σ) _).run e
    ended.1.1 = result ∧ Hosts ended.2 ended.1.2 ∧ ended.1.2.id = t.id := by
  induction requests generalizing e t with
  | nil => exact ⟨rfl, h, rfl⟩
  | cons request rest ih =>
    have hrest := fun r hr => hinner r (List.mem_cons_of_mem request hr)
    cases hp : (request.program [t] : Option (Program (Engine σ) _)) with
    | none =>
      simp only [requesting, hp]
      exact ih h hrest
    | some p =>
      obtain ⟨hhosts, hid⟩ := hosts_of_request h (hinner request List.mem_cons_self) hp
      obtain ⟨hresult, hended, hids⟩ := ih hhosts hrest
      simp only [requesting, hp, run_bind]
      exact ⟨hresult, hended, hids.trans hid⟩

end Hosting

/-! ## The end of a transaction -/

/-- The last request for a transaction whose body ended in `result` is refused: the timestamp of a
commit cannot be drawn, or the log does not answer. -/
def RefusesEnd (e : Engine σ) (t : Transaction) (result : Except Error α) : Prop :=
  t.isActive = true ∧
    match result with
    | .ok _ => Manager.RefusesCommit e.manager t
    | .error _ => e.manager.log.Refuses t.id .rollback

section Concluding

variable (e : Engine σ) (t : Transaction)

theorem run_conclude_ok (value : α) : (conclude t (.ok value)).run e =
    (((Engine.commit t).run e).1.1.map fun _ => value, ((Engine.commit t).run e).2) := by
  unfold conclude
  rw [run_bind]
  rcases ((Engine.commit t).run e).1 with ⟨answer, t'⟩
  cases answer <;> rfl

theorem run_conclude_error (cause : Error) :
    (conclude t (.error cause : Except Error α)).run e =
      (.error cause, if t.isActive then ((Engine.rollback t).run e).2 else e) := by
  unfold conclude
  cases t.isActive <;> simp [run_map]

/-- A transaction runs as a whole: it begins, its body runs, and it is concluded. -/
theorem run_transaction {body : Transaction → Program (Engine σ) (Except Error α × Transaction)}
    {e e' : Engine σ} {t : Transaction} (hbegun : beginTransaction.run e = (.ok t, e')) :
    (transaction body).run e =
      (conclude ((body t).run e').1.2 ((body t).run e').1.1).run ((body t).run e').2 := by
  unfold transaction
  rw [run_bind, hbegun]
  simp

variable {e t} (h : Hosts e t)

include h

/-- Behind its end the transaction is let go, unless its last request is refused. -/
theorem letGo_conclude (result : Except Error α) :
    LetGo t.id ((conclude t result).run e).2.manager ↔
      (RefusesEnd e t result → LetGo t.id e.manager) := by
  have hcommit := follows_commit h.isOpen t
  have hrollback : Follows ((Engine.rollback t).run e) (Manager.rollback t) e :=
    follows_whenOpenFor h.isOpen t (aside_retirePipeline t.id) (Manager.rollback t)
  cases hactive : t.isActive with
  | false =>
    -- the body has ended the transaction itself
    have hletGo := h.letGo hactive
    refine iff_of_true ?_ fun _ => hletGo
    cases result with
    | ok value =>
      rw [run_conclude_ok, hcommit.manager, Manager.commit, hactive]
      exact hletGo
    | error cause =>
      rw [run_conclude_error, hactive]
      exact hletGo
  | true =>
    simp only [RefusesEnd, hactive, true_and]
    cases result with
    | ok value =>
      rw [run_conclude_ok, hcommit.manager]
      exact (Manager.parts_commit e.manager hactive h.isPersisted).letGo_iff
    | error cause =>
      rw [run_conclude_error, hactive, if_pos rfl, hrollback.manager]
      exact (Manager.parts_rollback e.manager hactive h.isPersisted).letGo_iff

/-- The records are kept, and the log stays readable. -/
theorem preserves_conclude (result : Except Error α) :
    ((conclude t result).run e).2.manager.Coherent ∧
      Manager.Preserves e.manager ((conclude t result).run e).2.manager := by
  have hcoherent : e.manager.Coherent := h.orderly.truthful.coherent
  have hrefl : Manager.Preserves e.manager e.manager := Manager.discipline.refl e.manager
  cases result with
  | ok value =>
    rw [run_conclude_ok, (follows_commit h.isOpen t).manager]
    exact (Manager.promises_commit hcoherent t).alone hcoherent
  | error cause =>
    rw [run_conclude_error]
    split_ifs
    · have hrollback : Follows ((Engine.rollback t).run e) (Manager.rollback t) e :=
        follows_whenOpenFor h.isOpen t (aside_retirePipeline t.id) (Manager.rollback t)
      rw [hrollback.manager]
      exact (Manager.ensures_rollback Manager.nothing hcoherent t).alone hcoherent
    · exact ⟨hcoherent, hrefl⟩

/-- A transaction that is concluded with success is committed. -/
theorem committed_conclude {result : Except Error α} {value : α}
    (hok : ((conclude t result).run e).1 = .ok value) :
    ∃ r, ((conclude t result).run e).2.manager.log.get? t.id = some r ∧ r.state = .committed := by
  have hvalid := (preserves_conclude h result).1.valid
  cases result with
  | error cause =>
    rw [run_conclude_error] at hok
    cases hok
  | ok value' =>
    have hfollows := follows_commit h.isOpen t
    rw [run_conclude_ok, hfollows.answer] at hok
    rw [run_conclude_ok, hfollows.manager] at hvalid ⊢
    have heffect := Manager.yields_commit h.orderly.truthful.coherent.valid t
    unfold Yields at heffect
    generalize ((Manager.commit t).run e.manager).1 = answer at heffect hok
    cases heffect with
    | failed cause t' still owner => cases hok
    | closed active bare still =>
      rw [h.isPersisted] at bare
      cases bare
    | committed active persisted commits next =>
      have hts := commits.commits t.id
      rw [if_pos rfl, Log.commitTs?, Option.bind_eq_some_iff] at hts
      obtain ⟨r, hr, hts⟩ := hts
      refine ⟨r, hr, (hvalid t.id r hr).2.mp ?_⟩
      rw [hts]
      rfl

end Concluding

/-! ## Behind the end -/

theorem composed_unattended (id : TxnId) : Composed (σ := σ)
    (fun _ p => p.Alone (.ofInvariant (Unattended id))) fun _ p =>
      p.Alone (managing (.ofInvariant (Unattended id))) :=
  composed_managing (Manager.composed_unattended id) fun hf => alone_ofInvariant fun m h =>
    ⟨(hf m).1 ▸ h.recorded, (hf m).2.2 ▸ h.unregistered⟩

theorem unattended_shutdown (id : TxnId) :
    (shutdown : Program (Engine σ) Unit).Alone (managing (.ofInvariant (Unattended id))) := by
  have hparts := composed_unattended (σ := σ) id
  unfold shutdown
  refine .bind (hparts.read _) fun isOpen => ?_
  split_ifs
  · refine .bind (hparts.aside fun _ => ⟨rfl, rfl⟩) fun pipelines =>
      .bind (hparts.retireAll pipelines) fun _ => .bind (.atomically fun e he => ?_) fun _ =>
        .bind hparts.resolveAll fun _ => managing_aside fun _ => rfl
    exact ⟨⟨he.recorded, List.not_mem_nil⟩, trivial⟩
  · exact .pure _

/-- Nobody registers a transaction anew that has its record. -/
theorem unattended_program [Substrate σ] (id : TxnId) {held : List Transaction} {request : Request}
    {p : Program (Engine σ) (Option Transaction)} (hp : request.program held = some p) :
    p.Alone (managing (.ofInvariant (Unattended id))) := by
  have hparts := composed_unattended (σ := σ) id
  cases request with
  | begin =>
    cases hp
    exact hparts.map _ (hparts.whenOpen (managing_onManager (Manager.unattended_begin id)))
  | beginReadOnly =>
    cases hp
    exact hparts.map _ (hparts.whenOpen (managing_onManager (Manager.unattended_beginReadOnly id)))
  | elevate k =>
    obtain ⟨t, -, rfl⟩ := Option.map_eq_some_iff.mp hp
    exact hparts.map _
      (hparts.whenOpenFor t (managing_onManager (Manager.unattended_elevate id t)))
  | shutdown =>
    cases hp
    exact hparts.map _ (unattended_shutdown id)
  | manage inner =>
    cases inner with
    | begin =>
      cases hp
      exact hparts.map _ (managing_onManager ((Manager.composed_unattended id).map _
        (Manager.unattended_begin id)))
    | beginReadOnly =>
      cases hp
      exact hparts.map _ (managing_onManager ((Manager.composed_unattended id).map _
        (Manager.unattended_beginReadOnly id)))
    | elevate k =>
      obtain ⟨q, hq, rfl⟩ := Option.map_eq_some_iff.mp hp
      obtain ⟨t, -, rfl⟩ := Option.map_eq_some_iff.mp hq
      exact hparts.map _ (managing_onManager ((Manager.composed_unattended id).map _
        (Manager.unattended_elevate id t)))
    | _ => exact hparts.program hp rfl
  | _ => exact hparts.program hp rfl

namespace Session

variable [Substrate σ]

/-- Whatever is asked for, nobody registers a transaction anew that has its record. -/
theorem unattended_run {id : TxnId} {s : Session σ} (h : Unattended id s.engine.manager)
    (requests : List Request) : Unattended id (s.run requests).engine.manager := by
  induction requests generalizing s with
  | nil => exact h
  | cons request requests ih =>
    refine ih ?_
    unfold step
    cases hp : (request.program s.held : Option (Program (Engine σ) _)) with
    | none => exact h
    | some p => exact (unattended_program id hp s.engine h).1

/-- A transaction that has just begun, before its body runs. -/
theorem hosts_begin {s : Session σ} (hs : s.Orderly) {t : Transaction} {e : Engine σ}
    (hbegun : beginTransaction.run s.engine = (.ok t, e)) : Hosts e t := by
  have hopen : s.engine.isOpen = true := by
    by_contra hclosed
    simp [beginTransaction, whenOpen, hclosed] at hbegun
  have hstep : s.step .begin = ⟨e, s.held ++ [t]⟩ := by
    have hp : Request.begin.program s.held =
        some (Except.toOption <$> (beginTransaction : Program (Engine σ) _)) := rfl
    rw [step_of_program hp, hbegun]
    rfl
  have horderly : Orderly ⟨e, s.held ++ [t]⟩ := hstep ▸ orderly_step hs .begin
  have hopenness : (beginTransaction : Program (Engine σ) _).Alone openness :=
    composed_openness.whenOpen (openness_onManager Manager.begin)
  have hnew : ∃ id, t = .new id false := by
    have hbegan : (Manager.begin.run s.engine.manager).1 = .ok t := by
      have hrun : (beginTransaction.run s.engine).1 = (Manager.begin.run s.engine.manager).1 := by
        simp [beginTransaction, whenOpen, hopen, run_onManager]
      rw [← hrun, hbegun]
    rcases Manager.creates_begin s.engine.manager with ⟨cause, hcause, -⟩ | ⟨hok, -⟩
    · rw [hbegan] at hcause
      cases hcause
    · exact ⟨_, Except.ok.inj (hbegan.symm.trans hok)⟩
  have hisOpen : e.isOpen = true := by
    have hsame : (beginTransaction.run s.engine).2.isOpen = s.engine.isOpen :=
      (hopenness s.engine trivial).2
    rw [hbegun] at hsame
    exact hsame.trans hopen
  obtain ⟨id, rfl⟩ := hnew
  have hmem : Transaction.new id false ∈ s.held ++ [.new id false] := by simp
  exact ⟨⟨horderly.truthful, horderly.rightful.singleton hmem⟩, hisOpen, rfl, nofun⟩

/-- What is left of a transaction that is run as a whole. Whatever an engine was asked for before,
and whatever its log held and its storage did: when a body has ended, whatever it made of its
transaction and of the engine, and the transaction is concluded, it is neither active nor
registered, unless the last request for it is refused, and it had not been let go before. Nobody
registers it any more then, whatever is asked for later. And if it is reported as a success, its
record is committed. -/
theorem transaction_letGo (h : Handle) (log : Bytes) (f : Faults) (config : Config)
    (c : Collaborators σ) (before : List Request) (result : Except Error α)
    {requests : List Request} (hinner : ∀ request ∈ requests, request.isInner = true)
    {t : Transaction} {e : Engine σ}
    (hbegun : beginTransaction.run ((openedOver h log f config c).run before).engine = (.ok t, e)) :
    let ended := (requesting result requests t).run e
    let ran := (Engine.transaction (requesting result requests)).run
      ((openedOver h log f config c).run before).engine
    (LetGo t.id ran.2.manager ↔
        (RefusesEnd ended.2 ended.1.2 result → LetGo t.id ended.2.manager)) ∧
      (LetGo t.id ran.2.manager → ∀ held later,
        t.id ∉ ((⟨ran.2, held⟩ : Session σ).run later).engine.manager.keepAlive.registered) ∧
      ∀ value, ran.1 = .ok value →
        ∃ r, ran.2.manager.log.get? t.id = some r ∧ r.state = .committed := by
  intro ended ran
  have hs := orderly_run (orderly_openedOver h log f config c) before
  obtain ⟨hresult, hhosts, hid⟩ := hosts_requesting (hosts_begin hs hbegun) result hinner
  have hran : ran = (conclude ended.1.2 result).run ended.2 := by
    rw [← hresult]
    exact run_transaction hbegun
  rw [hran, ← hid]
  refine ⟨letGo_conclude hhosts result, fun hletGo held later => ?_,
    fun value hok => committed_conclude hhosts hok⟩
  obtain ⟨r, hr⟩ := Option.ne_none_iff_exists'.mp
    (hhosts.orderly.rightful.recorded ended.1.2 (List.mem_singleton_self _) hhosts.isPersisted)
  obtain ⟨r', hr', -⟩ := (preserves_conclude hhosts result).2 _ r hr
  have hunattended : Unattended ended.1.2.id ((conclude ended.1.2 result).run ended.2).2.manager :=
    ⟨by rw [hr']; exact Option.some_ne_none r', hletGo.unregistered⟩
  exact (unattended_run (s := ⟨_, held⟩) hunattended later).unregistered

/-! A body that does nothing and succeeds. -/

def plainCollaborators : Collaborators ScriptedSubstrate :=
  Workload.ownCollaborators 1000 Directory.defaultLabel

/-- On storage that does not fail the transaction is committed, and nothing is left running. -/
theorem transaction_letGo_empty :
    let s := (openedOver .shared [] .none .default plainCollaborators).run []
    let ran := (Engine.transaction (requesting (.ok ()) [])).run s.engine
    ran.1 = .ok () ∧ LetGo ⟨1⟩ ran.2.manager ∧
      (∀ held later, ⟨1⟩ ∉
        ((⟨ran.2, held⟩ : Session _).run later).engine.manager.keepAlive.registered) ∧
      ∃ r, ran.2.manager.log.get? ⟨1⟩ = some r ∧ r.state = .committed := by
  intro s ran
  have hbegun : beginTransaction.run s.engine =
      (.ok (.new ⟨1⟩ false), (beginTransaction.run s.engine).2) := by
    refine Prod.ext ?_ rfl
    simp only [s, openedOver, Log.openedFaulty_nil]
    decide +kernel
  have hok : ran.1 = .ok () := by
    simp only [ran, s, openedOver, Log.openedFaulty_nil]
    decide +kernel
  obtain ⟨hletGo, hlater, hcommitted⟩ := transaction_letGo .shared [] .none .default
    plainCollaborators [] (.ok ()) (List.forall_mem_nil _) hbegun
  have hgone : LetGo ⟨1⟩ ran.2.manager := by
    refine hletGo.mpr fun hrefuses => ?_
    let m := (beginTransaction.run s.engine).2.manager
    have hdrawn : m.oracle.draw.1 = .ok ⟨2⟩ := by
      simp only [m, s, openedOver, Log.openedFaulty_nil]
      decide +kernel
    have hgranted : (m.log.transition ⟨1⟩ (.commit ⟨2⟩ m.clock.now m.timeout)).1.isOk = true := by
      simp only [m, s, openedOver, Log.openedFaulty_nil]
      decide +kernel
    obtain ⟨cause, hcause⟩ := hrefuses.2 ⟨2⟩ hdrawn
    have hfalse : true = false := hgranted.symm.trans (congrArg Except.isOk hcause)
    cases hfalse
  exact ⟨hok, hgone, hlater hgone, hcommitted () hok⟩

/-- Not every transaction that is run as a whole is let go in the end. -/
theorem not_forall_transaction_letGo :
    ¬ ∀ (h : Handle) (log : Bytes) (f : Faults) (config : Config)
        (c : Collaborators ScriptedSubstrate) (before : List Request) (result : Except Error Unit)
        (requests : List Request) (t : Transaction) (e : Engine ScriptedSubstrate),
      (∀ request ∈ requests, request.isInner = true) →
      beginTransaction.run ((openedOver h log f config c).run before).engine = (.ok t, e) →
      LetGo t.id ((Engine.transaction (requesting result requests)).run
        ((openedOver h log f config c).run before).engine).2.manager := by
  intro hall
  have hletGo := hall .shared [] refusingFaults .default plainCollaborators [] (.ok ()) []
    (.new ⟨1⟩ false) _ (by simp) (by
      refine Prod.ext ?_ rfl
      rw [openedOver, Log.openedFaulty_nil]
      decide +kernel)
  have hactive : ⟨1⟩ ∈ ((Engine.transaction (requesting (.ok ()) [])).run
      ((openedOver .shared [] refusingFaults .default plainCollaborators).run
        []).engine).2.manager.active := by
    rw [openedOver, Log.openedFaulty_nil]
    decide +kernel
  exact hletGo.inactive hactive

end Session

end Engine

end TxnEngine
