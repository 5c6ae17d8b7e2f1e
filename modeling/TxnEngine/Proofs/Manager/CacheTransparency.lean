import TxnEngine.Proofs.Manager.Abandonment
import TxnEngine.Proofs.Manager.TwoRuns

/-!
# The cache is transparent

Two sessions that differ in how many finished records their caches hold, and for how long, answer
every request the same and leave the same behind, but for the caches themselves and their counters.
Time is free to pass in front of every single action, so this holds for whatever times the records
were put in at. The reason is that every cached record is the one in the log.

Results:
* `Turn.agrees`, `Turn.coherent`: what is asked for in a turn is answered alike by both sessions, and
  keeps each cache in agreement with its log.
* `cache_transparent`: two sessions over one log.
-/

namespace TxnEngine

namespace Manager

open Program

namespace Session

/-! ## Turns -/

/-- Whether the time that passes decides about a request. -/
def isTimed : Request → Bool
  | .receive | .dispatch => true
  | _ => false

/-- What can be asked for, and what can happen in between. The dispatcher of the keep-alive registry
is told the time. -/
inductive Turn where
  | ask (request : Request) (untimed : isTimed request = false)
  | isVisibleAt (snapshot : Timestamp) (own : Option TxnId) (candidate : TxnId)
  | receive (now : Instant)
  | dispatch (now : Instant)
  | clearCache
  | shutdown
  /-- From now on timestamps come from another oracle. -/
  | setOracle (oracle : Oracle)

namespace Turn

/-- The program of a turn, if the transaction it is about is there. -/
def program (held : List Transaction) : Turn → Option (Program Manager Reply)
  | ask request _ => request.program held
  | isVisibleAt snapshot own candidate => some (Op.isVisibleAt snapshot own candidate).program
  | receive now => some ((fun _ => Reply.done) <$> Program.modify fun m =>
      { m with keepAlive := m.keepAlive.receive now })
  | dispatch now => some ((fun _ => Reply.done) <$> Program.modify fun m =>
      { m with keepAlive := m.keepAlive.dispatch now })
  | clearCache => some ((fun _ => Reply.done) <$> Program.modify fun m =>
      { m with cache := m.cache.clear })
  | shutdown => some Op.shutdown.program
  | setOracle oracle => some ((fun _ => Reply.done) <$> Program.modify fun m => { m with oracle })

/-- The transactions that are held after a turn. -/
def keep (held : List Transaction) (turn : Turn) (reply : Reply) : List Transaction :=
  match turn with
  | ask request _ => Session.keep held request reply
  | _ => held

end Turn

/-- From `s` on the turns can be answered with the replies and leave `t`, while time passes in front
of every action. -/
inductive Answers : Session → List Turn → List (Option Reply) → Session → Prop where
  | nil (s : Session) : Answers s [] [] s
  /-- The transaction is not there. -/
  | refused {s t : Session} {turn : Turn} {turns : List Turn} {replies : List (Option Reply)}
      (program : turn.program s.held = none) (rest : Answers s turns replies t) :
      Answers s (turn :: turns) (none :: replies) t
  | served {s t : Session} {turn : Turn} {turns : List Turn} {replies : List (Option Reply)}
      {p : Program Manager Reply} {reply : Reply} {m : Manager}
      (program : turn.program s.held = some p) (passes : p.Passes TimePasses s.manager reply m)
      (rest : Answers ⟨m, turn.keep s.held reply⟩ turns replies t) :
      Answers s (turn :: turns) (some reply :: replies) t

/-- The answers to the turns while no time passes but in reading the time, and what they leave. -/
def answer (s : Session) : List Turn → List (Option Reply) × Session
  | [] => ([], s)
  | turn :: turns =>
    match turn.program s.held with
    | none => ((none :: (s.answer turns).1), (s.answer turns).2)
    | some p =>
      let t : Session := ⟨(p.run s.manager).2, turn.keep s.held (p.run s.manager).1⟩
      ((some (p.run s.manager).1 :: (t.answer turns).1), (t.answer turns).2)

theorem answers_answer (s : Session) (turns : List Turn) :
    s.Answers turns (s.answer turns).1 (s.answer turns).2 := by
  induction turns generalizing s with
  | nil => exact .nil s
  | cons turn turns ih =>
    simp only [answer]
    split
    · next hp => exact .refused hp (ih s)
    · next p hp => exact .served hp (.of_run .refl p s.manager) (ih _)

namespace Turn

variable {m m' : Manager} {held : List Transaction} {turn : Turn} {p : Program Manager Reply}

theorem coherent (hp : turn.program held = some p) (hm : m.Coherent) {reply : Reply}
    (h : p.Passes TimePasses m reply m') : m'.Coherent := by
  have promised {p : Program Manager Reply} {may : Manager → Manager → Manager → Prop}
      {post : Manager → Reply → Manager → Prop}
      (hp : ∀ m, m.Coherent → p.Promises discipline (may m) (post m) m)
      (h : p.Passes TimePasses m reply m') : m'.Coherent :=
    (Promises.passes (D := discipline) hp hm (fun _ _ => coherent_of_timePasses) h).1
  -- an action of its own
  have acted {f : Manager → Manager}
      (h : ((fun _ => Reply.done) <$> Program.modify f).Passes TimePasses m reply m')
      (hf : ∀ m, m.Coherent → (f m).Coherent) : m'.Coherent := by
    obtain ⟨_, ⟨m₀, htime, -, rfl⟩, -⟩ := passes_map.mp h
    exact hf m₀ (coherent_of_timePasses htime hm).1
  cases turn with
  | ask request untimed =>
    rcases request.program_cases hp with ⟨op, rfl⟩ | ⟨id, rfl⟩
    · exact promised (contract_program.promises op) h
    · have hrenew (m : Manager) (hm : m.Coherent) : ((fun _ => Reply.done) <$> renew id).Promises
          discipline (May nothing) (fun _ _ => True) m :=
        .map ((ensures_renew nothing hm id).promises (May.refl _) hm)
      exact promised hrenew h
  | isVisibleAt snapshot own candidate =>
    cases hp
    exact promised (contract_program.promises _) h
  | shutdown =>
    cases hp
    exact promised (contract_program.promises _) h
  | receive now | dispatch now | setOracle oracle =>
    cases hp
    exact acted h fun m hm => ⟨hm.valid, hm.cached⟩
  | clearCache =>
    cases hp
    exact acted h fun m hm => ⟨hm.valid, fun _ _ hentry => by cases hentry⟩

theorem agrees (hp : turn.program held = some p) (hm : m.Coherent) (hm' : m'.Coherent)
    (hview : m.uncached = m'.uncached) : p.Agrees TimePasses uncached m m' := by
  have acted {f : Manager → Manager} (hf : ∀ m : Manager, (f m).uncached = (f m.uncached).uncached) :
      ((fun _ => Reply.done) <$> Program.modify f).Agrees TimePasses uncached m m' :=
    .map _ (agrees_atomically (fun m => ⟨rfl, hf m⟩) hview)
  cases turn with
  | ask request untimed =>
    cases request with
    | elevate k => exact Request.of_held hp fun t => .map _ (beginning_transparent.elevate t _ _ hview)
    | commit k => exact Request.of_held hp fun t => .map _ (transparent_commit t _ _ hview)
    | rollback k => exact Request.of_held hp fun t => .map _ (aborting_transparent.rollback t _ _ hview)
    | fail k => exact Request.of_held hp fun t => .map _ (aborting_transparent.fail t _ _ hview)
    | isVisible k candidate =>
      exact Request.of_held hp fun t => .map _ (agrees_isVisibleAt hview hm hm' _ _ _)
    | begin => cases hp; exact .map _ (beginning_transparent.begin _ _ hview)
    | beginReadOnly => cases hp; exact .map _ (beginning_transparent.beginReadOnly _ _ hview)
    | status id => cases hp; exact .map _ (agrees_status hview hm hm' id)
    | settle id => cases hp; exact .map _ (agrees_settle hview hm hm' id)
    | renew id => cases hp; exact .map _ (aborting_transparent.renew id _ _ hview)
    | work => cases hp; exact .map _ (aborting_transparent.work _ _ hview)
    | setClock now | wait d => cases hp; exact acted fun _ => rfl
    | receive | dispatch => cases untimed
  | isVisibleAt snapshot own candidate =>
    cases hp
    exact .map _ (agrees_isVisibleAt hview hm hm' _ _ _)
  | receive now | dispatch now | clearCache | shutdown | setOracle oracle =>
    cases hp
    exact acted fun _ => rfl

end Turn

/-! ## Two sessions -/

theorem coherent_of_answers {s t : Session} {turns : List Turn} {replies : List (Option Reply)}
    (h : s.Answers turns replies t) (hs : s.manager.Coherent) : t.manager.Coherent := by
  induction h with
  | nil => exact hs
  | refused program rest ih => exact ih hs
  | served program passes rest ih => exact ih (Turn.coherent program hs passes)

/-- Two sessions that differ in their caches only answer the same. -/
theorem answers_agree {s s' t t' : Session} {turns : List Turn} {replies replies' : List (Option Reply)}
    (h : s.Answers turns replies t) (h' : s'.Answers turns replies' t') (hs : s.manager.Coherent)
    (hs' : s'.manager.Coherent) (hview : s.manager.uncached = s'.manager.uncached)
    (hheld : s.held = s'.held) :
    replies = replies' ∧ t.held = t'.held ∧ t.manager.uncached = t'.manager.uncached := by
  induction h generalizing s' replies' with
  | nil s =>
    cases h'
    exact ⟨rfl, hheld, hview⟩
  | refused program rest ih =>
    rw [hheld] at program
    cases h' with
    | refused program' rest' =>
      obtain ⟨rfl, hrest⟩ := ih rest' hs hs' hview hheld
      exact ⟨rfl, hrest⟩
    | served program' passes' rest' =>
      rw [program] at program'
      cases program'
  | served program passes rest ih =>
    rw [hheld] at program
    cases h' with
    | refused program' rest' =>
      rw [program] at program'
      cases program'
    | served program' passes' rest' =>
      obtain rfl := Option.some.inj (program.symm.trans program')
      obtain ⟨rfl, hview'⟩ := Turn.agrees program hs hs' hview _ _ _ _ passes passes'
      obtain ⟨rfl, hrest⟩ := ih rest' (Turn.coherent program hs passes)
        (Turn.coherent program hs' passes') hview' (by rw [hheld])
      exact ⟨rfl, hrest⟩

/-- The cache is transparent. Two sessions over one log, with whatever capacities and ages of their
caches, and with whatever time that passes in either, give the same answers to the same turns and
leave the same transactions in the hands of their owners and the same state, but for the caches,
the counters of what was found in them, and the time. Every record that is cached is the one in the
log. -/
theorem cache_transparent {σ : Type} (h : Handle) (bytes : Bytes) (f : Faults) (config : Config)
    (c : Collaborators σ) (capacity : Nat) (maxAge : Duration) (turns : List Turn)
    {replies replies' : List (Option Reply)} {s s' : Session}
    (hs : (onLog (Log.openedFaulty h bytes f) config c).Answers turns replies s)
    (hs' : (onLog (Log.openedFaulty h bytes f)
      { config with cacheCapacity := capacity, cacheMaxAge := maxAge } c).Answers turns replies'
        s') :
    replies = replies' ∧ s.held = s'.held ∧ s.manager.uncached = s'.manager.uncached ∧
      ∀ id entry, s.manager.cache.entries.find? id = some entry →
        s.manager.log.get? id = some entry.record := by
  have hv := Log.valid_openedFaulty h bytes f
  have hcoherent : (onLog (Log.openedFaulty h bytes f) config c).manager.Coherent :=
    coherent_newManager hv config c
  obtain ⟨hreplies, hheld, hview⟩ := answers_agree hs hs' hcoherent (coherent_newManager hv _ c) rfl rfl
  exact ⟨hreplies, hheld, hview, fun id entry hentry =>
    ((coherent_of_answers hs hcoherent).cached id entry hentry).2⟩

/-! A transaction that commits at its second attempt, because the storage fails in the first. Its
record is looked up, dropped from the cache, and looked up again. -/

def cachedTurns : List Turn :=
  [.ask .begin rfl, .ask (.commit 0) rfl, .ask (.commit 0) rfl, .ask (.status ⟨1⟩) rfl, .clearCache,
    .ask (.settle ⟨1⟩) rfl]

/-- Without a cache the answers are the same. -/
theorem answer_cachedTurns :
    let log := Log.openedFaulty .shared [] (Faults.none.add .sync 1)
    let c := Workload.ownCollaborators 0 Directory.defaultLabel
    let s := onLog log .default c
    let s' := onLog log { Config.default with cacheCapacity := 0 } c
    (s.answer cachedTurns).1 = (s'.answer cachedTurns).1 ∧
      (s.answer cachedTurns).2.manager.cache.length = 1 ∧
        (s'.answer cachedTurns).2.manager.cache.length = 0 := by
  intro log c s s'
  have hagree := cache_transparent .shared [] (Faults.none.add .sync 1) .default c 0
    Config.default.cacheMaxAge cachedTurns (answers_answer s cachedTurns)
    (answers_answer s' cachedTurns)
  refine ⟨hagree.1, ?_, ?_⟩
  · simp only [s, log, Log.openedFaulty_nil]
    decide +kernel
  · simp only [s', log, Log.openedFaulty_nil]
    decide +kernel

end Session

end Manager

end TxnEngine
