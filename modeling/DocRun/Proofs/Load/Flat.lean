import DocRun.Load

namespace DocRun.Load

-- The drafts among the calls.
def Call.seen? : Call → Option Config
  | seen config => some config
  | _ => none

namespace Run

variable {α β γ : Type}

-- The drafts that the sources have looked at, in order.
def seen (run : Run α) : List Config := run.calls.filterMap Call.seen?

theorem mem_seen_iff {run : Run α} {config : Config} :
    config ∈ run.seen ↔ Call.seen config ∈ run.calls := by
  simp only [seen, List.mem_filterMap]
  constructor
  · rintro ⟨call, hm, hc⟩
    cases call with
    | seen draft =>
        obtain rfl := Option.some.inj hc
        exact hm
    | _ => exact nomatch hc
  · exact fun hm => ⟨_, hm, rfl⟩

theorem pure_bind (value : α) (next : α → Run β) : (pure value : Run α) >>= next = next value := by
  simp only [Bind.bind, Run.bind, pure, List.nil_append]

theorem bind_of_ok {run : Run α} {value : α} (next : α → Run β) (h : run.result = .ok value) :
    run >>= next =
      ⟨(next value).result, run.calls ++ (next value).calls, run.log ++ (next value).log⟩ := by
  simp only [Bind.bind, Run.bind, h]

theorem bind_of_error {run : Run α} {error : ConfigError} (next : α → Run β)
    (h : run.result = .error error) : run >>= next = ⟨.error error, run.calls, run.log⟩ := by
  simp only [Bind.bind, Run.bind, h]

theorem bind_assoc (run : Run α) (next : α → Run β) (last : β → Run γ) :
    run >>= next >>= last = run >>= fun value => next value >>= last := by
  cases hr : run.result with
  | error error =>
      rw [bind_of_error _ hr, bind_of_error _ hr, bind_of_error _ rfl]
  | ok value =>
      rw [bind_of_ok _ hr, bind_of_ok _ hr]
      cases hn : (next value).result with
      | error error => rw [bind_of_error _ rfl, bind_of_error _ hn]
      | ok other =>
          rw [bind_of_ok _ rfl, bind_of_ok _ hn]
          simp only [List.append_assoc]

theorem seen_bind (run : Run α) (next : α → Run β) :
    (run >>= next).seen =
      run.seen ++ match run.result with
        | .ok value => (next value).seen
        | .error _ => [] := by
  cases hr : run.result with
  | ok value =>
      rw [bind_of_ok _ hr]
      exact List.filterMap_append
  | error error =>
      rw [bind_of_error _ hr]
      exact (List.append_nil _).symm

-- What would come after an error does not matter.
theorem bind_congr_of_error {run : Run α} {error : ConfigError} (next other : α → Run β)
    (h : run.result = .error error) : run >>= next = run >>= other := by
  rw [bind_of_error _ h, bind_of_error _ h]

-- Two runs that give the same and look at the same drafts.
-- The names that are asked for and the events may differ.
def Agrees (run other : Run α) : Prop := run.result = other.result ∧ run.seen = other.seen

theorem agrees_refl (run : Run α) : run.Agrees run := ⟨rfl, rfl⟩

theorem agrees_bind {run other : Run α} {next last : α → Run β} (h : run.Agrees other)
    (hn : ∀ value, (next value).Agrees (last value)) : (run >>= next).Agrees (other >>= last) := by
  obtain ⟨hr, hs⟩ := h
  rw [Agrees, seen_bind, seen_bind, ← hr, ← hs]
  cases ho : run.result with
  | error error =>
      rw [bind_of_error _ ho, bind_of_error _ (hr.symm.trans ho)]
      exact ⟨rfl, rfl⟩
  | ok value =>
      rw [bind_of_ok _ ho, bind_of_ok _ (hr.symm.trans ho)]
      exact ⟨(hn value).1, congrArg (run.seen ++ ·) (hn value).2⟩

-- A run that looks at no draft on its way to a value can be left out.
theorem agrees_of_silent {run : Run α} {value : α} (next : α → Run β)
    (hr : run.result = .ok value) (hs : run.seen = []) : (run >>= next).Agrees (next value) := by
  rw [Agrees, seen_bind, hr, hs, bind_of_ok _ hr]
  exact ⟨rfl, rfl⟩

end Run

theorem result_build (log : Log) (settings : Settings) :
    (build log settings).result = settings.build := by
  unfold build
  cases settings.build <;> rfl

theorem seen_build (log : Log) (settings : Settings) : (build log settings).seen = [] := by
  unfold build
  cases settings.build <;> rfl

theorem Action.runAll_append (log : Log) (settings : Settings) (actions more : List Action) :
    runAll log settings (actions ++ more) =
      runAll log settings actions >>= fun settings => runAll log settings more := by
  induction actions generalizing settings with
  | nil => rw [List.nil_append, runAll, Run.pure_bind]
  | cons action actions ih =>
      rw [List.cons_append, runAll, runAll, Run.bind_assoc]
      simp only [ih]

theorem gather_append (log : Log) (settings : Settings) (sources more : List Source) :
    gather log settings (sources ++ more) =
      gather log settings sources >>= fun settings => gather log settings more := by
  induction sources generalizing settings with
  | nil => rw [List.nil_append, gather, Run.pure_bind]
  | cons source sources ih =>
      simp only [List.cons_append, gather, Run.bind_assoc, ih]

theorem announce_silent (log : Log) (source : Source) :
    (announce log source).result = .ok () ∧ (announce log source).seen = [] := by
  unfold announce
  cases log.wanted.includes .debug <;> exact ⟨rfl, rfl⟩

theorem Source.populate_agrees (log : Log) (source : Source) (settings : Settings) :
    (source.populate log settings).Agrees (Action.runAll log settings source.actions) :=
  Run.agrees_of_silent _ rfl rfl

-- What the sources do in order, as if all of it came from one source.
def actionsOf (sources : List Source) : List Action := sources.flatMap Source.actions

-- Where one source ends and the next one starts makes no difference.
theorem gather_agrees (log : Log) (settings : Settings) (sources : List Source) :
    (gather log settings sources).Agrees
      (Action.runAll log settings (actionsOf sources)) := by
  induction sources generalizing settings with
  | nil => exact Run.agrees_refl _
  | cons source sources ih =>
      have hsilent := announce_silent log source
      have htail := Run.agrees_bind (source.populate_agrees log settings)
        fun settings => ih settings
      have hhead := Run.agrees_of_silent
        (fun _ => source.populate log settings >>= fun settings => gather log settings sources)
        hsilent.1 hsilent.2
      rw [gather, actionsOf, List.flatMap_cons, Action.runAll_append]
      exact ⟨hhead.1.trans htail.1, hhead.2.trans htail.2⟩

theorem load_agrees (log : Log) (sources : List Source) :
    (load log sources).Agrees
      (Action.runAll log {} (actionsOf sources) >>= build log) :=
  Run.agrees_bind (gather_agrees log {} sources) fun _ => Run.agrees_refl _

end DocRun.Load
