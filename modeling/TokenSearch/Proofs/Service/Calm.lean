import TokenSearch.Service.Operations

namespace TokenSearch.Run

/-! Computations that leave the disk alone, and whose result depends on nothing else. -/

variable {α β : Type}

theorem bind_of_ok {first : Run α} {next : α → Run β} {world after : World} {a : α}
    (returned : first.run world = (.ok a, after)) :
    (first >>= next).run world = (next a).run after := by
  change (first.run >>= ExceptT.bindCont next) world = _
  change (match first.run world with | (result, after) => ExceptT.bindCont next result after) = _
  rw [returned]
  rfl

theorem bind_of_error {first : Run α} {next : α → Run β} {world after : World} {fault : Fault}
    (failed : first.run world = (.error fault, after)) :
    (first >>= next).run world = (.error fault, after) := by
  change (match first.run world with | (result, after) => ExceptT.bindCont next result after) = _
  rw [failed]
  rfl

theorem get_bind_run (next : World → Run β) (world : World) :
    ((get : Run World) >>= next).run world = (next world).run world := rfl

theorem result_ofExcept_bind {result : Except Fault α} {next : α → Run β}
    {value : α → Except Fault β} {world : World} (later : ∀ a, ((next a).run world).1 = value a) :
    ((Run.ofExcept result >>= next).run world).1 = result >>= value := by
  cases result with
  | ok a => exact later a
  | error fault => rfl

theorem forM_run {say : α → Run Unit} (each : ∀ a world, ∃ after, (say a).run world = (.ok (), after))
    (members : List α) (world : World) : ∃ after, (members.forM say).run world = (.ok (), after) := by
  induction members generalizing world with
  | nil => exact ⟨world, rfl⟩
  | cons a rest ih =>
      obtain ⟨next, first⟩ := each a world
      obtain ⟨after, later⟩ := ih next
      exact ⟨after, (bind_of_ok first).trans later⟩

theorem changeDisk_run (change : Disk → Except Fault α × Disk) {world : World}
    {outcome : Except Fault α} {disk : Disk} (changed : change world.disk = (outcome, disk)) :
    (changeDisk change).run world = (outcome, { world with disk }) := by
  change (Run.ofExcept (change world.disk).1).run { world with disk := (change world.disk).2 } = _
  rw [changed]
  cases outcome <;> rfl

/-- What is counted afterwards changes neither the result nor the disk. -/
theorem finally_run {body : Run α} {world after : World} {outcome : Except Fault α}
    (done : body.run world = (outcome, after)) (f : Telemetry.Metrics → Telemetry.Metrics) :
    ∃ last : World, last.disk = after.disk ∧
      (finally_ body (count f)).run world = (outcome, last) := by
  refine ⟨{ after with metrics := f after.metrics }, rfl, ?_⟩
  change (match body.run world with
    | (result, after) => (Run.ofExcept result).run { after with metrics := f after.metrics }) = _
  rw [done]
  cases outcome <;> rfl

/-- A span around a computation changes neither its result nor the disk. -/
theorem traced_run {operation : String} {attributes : Telemetry.Attributes}
    {body : Run (α × Telemetry.Attributes)} (world : World) {after : World}
    {outcome : Except Fault (α × Telemetry.Attributes)}
    (done : body.run (world.bindSpan world.chance.trace world.chance.span) = (outcome, after)) :
    ∃ last : World, last.disk = after.disk ∧
      (traced operation attributes body).run world = (outcome.map Prod.fst, last) := by
  have bound : (modify (fun world => world.bindSpan world.chance.trace world.chance.span) :
      Run Unit).run world = (.ok (), world.bindSpan world.chance.trace world.chance.span) := rfl
  have inside : (ExceptT.lift (ExceptT.run body) : Run _).run
      (world.bindSpan world.chance.trace world.chance.span) = (.ok outcome, after) := by
    change (match body.run _ with | (result, after) => (Except.ok result, after)) = _
    rw [done]
  rw [traced, bind_of_ok bound]
  simp only
  rw [bind_of_ok inside]
  cases outcome with
  | ok pair => exact ⟨{ after with spans := _ :: after.spans }, rfl, rfl⟩
  | error fault => exact ⟨{ after with spans := _ :: after.spans }, rfl, rfl⟩

/-- The disk and the chance stay as they are, and the result depends on the disk alone. -/
structure Calm (action : Run α) : Prop where
  disk : ∀ world, (action.run world).2.disk = world.disk
  chance : ∀ world, (action.run world).2.chance = world.chance
  result : ∀ world other, world.disk = other.disk →
    (action.run world).1 = (action.run other).1

namespace Calm

theorem run {action : Run α} (calm : Calm action) {world other : World}
    (disk : other.disk = world.disk) (chance : other.chance = world.chance) :
    ∃ after : World, after.disk = world.disk ∧ after.chance = world.chance ∧
      action.run other = ((action.run world).1, after) := by
  refine ⟨(action.run other).2, ?_, ?_, ?_⟩
  · rw [calm.disk, disk]
  · rw [calm.chance, chance]
  · rw [calm.result world other disk.symm]
    rfl

theorem pure (a : α) : Calm (Pure.pure a : Run α) where
  disk := fun _ => rfl
  chance := fun _ => rfl
  result := fun _ _ _ => rfl

theorem ofExcept (result : Except Fault α) : Calm (Run.ofExcept result) := by
  cases result with
  | ok a => exact pure a
  | error fault => exact ⟨fun _ => rfl, fun _ => rfl, fun _ _ _ => rfl⟩

theorem throw (fault : Fault) : Calm (MonadExcept.throw fault : Run α) :=
  ⟨fun _ => rfl, fun _ => rfl, fun _ _ _ => rfl⟩

theorem modify {change : World → World} (disk : ∀ world, (change world).disk = world.disk)
    (chance : ∀ world, (change world).chance = world.chance) :
    Calm (modify change : Run Unit) where
  disk := disk
  chance := chance
  result := fun _ _ _ => rfl

theorem bind {first : Run α} {next : α → Run β} (calm : Calm first)
    (later : ∀ a, Calm (next a)) : Calm (first >>= next) where
  disk := by
    intro world
    have before := calm.disk world
    cases returned : first.run world with
    | mk result after =>
        rw [returned] at before
        cases result with
        | ok a => rw [bind_of_ok returned, (later a).disk, before]
        | error fault => rw [bind_of_error returned, before]
  chance := by
    intro world
    have before := calm.chance world
    cases returned : first.run world with
    | mk result after =>
        rw [returned] at before
        cases result with
        | ok a => rw [bind_of_ok returned, (later a).chance, before]
        | error fault => rw [bind_of_error returned, before]
  result := by
    intro world other same
    have alike := calm.result world other same
    have before := calm.disk world
    have beforeOther := calm.disk other
    cases returned : first.run world with
    | mk result after =>
        cases returnedOther : first.run other with
        | mk resultOther afterOther =>
            rw [returned, returnedOther] at alike
            rw [returned] at before
            rw [returnedOther] at beforeOther
            cases alike
            cases result with
            | ok a =>
                rw [bind_of_ok returned, bind_of_ok returnedOther]
                exact (later a).result _ _ (before.trans (same.trans beforeOther.symm))
            | error fault => rw [bind_of_error returned, bind_of_error returnedOther]

/-- A calm step passes its result on to a step that depends on the disk alone. -/
theorem result_bind {first : Run α} {next : α → Run β} {value : α → Except Fault β}
    (calm : Calm first) {world : World}
    (later : ∀ a (other : World), other.disk = world.disk → ((next a).run other).1 = value a) :
    ((first >>= next).run world).1 = (first.run world).1 >>= value := by
  have before := calm.disk world
  cases returned : first.run world with
  | mk result after =>
      rw [returned] at before
      cases result with
      | ok a =>
          rw [bind_of_ok returned]
          exact later a after before
      | error fault =>
          rw [bind_of_error returned]
          rfl

theorem get {next : World → Run β} (later : ∀ world, Calm (next world))
    (blind : ∀ world other, world.disk = other.disk → next world = next other) :
    Calm (MonadState.get >>= next) where
  disk := fun world => (later world).disk world
  chance := fun world => (later world).chance world
  result := fun world other same => by
    have alike : ((next world).run world).1 = ((next other).run other).1 := by
      rw [blind world other same]
      exact (later other).result world other same
    exact alike

theorem note (note : Logging.Note) : Calm (Run.note note) := modify (fun _ => rfl) (fun _ => rfl)

theorem forM {say : α → Run Unit} (each : ∀ a, Calm (say a)) (members : List α) :
    Calm (members.forM say) := by
  induction members with
  | nil => exact pure ()
  | cons a rest ih => exact (each a).bind (fun _ => ih)

theorem notes (notes : List Logging.Note) : Calm (Run.notes notes) := forM note notes

theorem workerNotes (notes : List Logging.Note) : Calm (Run.workerNotes notes) := by
  refine forM (fun note => ?_) notes
  exact modify (fun _ => rfl) (fun _ => rfl)

theorem mapM {step : α → Run β} (each : ∀ a, Calm (step a)) (members : List α) :
    Calm (members.mapM step) := by
  induction members with
  | nil => exact pure []
  | cons a rest ih =>
      rw [List.mapM_cons]
      exact (each a).bind (fun b => ih.bind (fun others => pure (b :: others)))

theorem result_mapM {step : α → Run β} {value : α → Except Fault β} (calm : ∀ a, Calm (step a))
    {world : World}
    (each : ∀ a (other : World), other.disk = world.disk → ((step a).run other).1 = value a)
    (members : List α) : ((members.mapM step).run world).1 = members.mapM value := by
  induction members generalizing world with
  | nil => rfl
  | cons a rest ih =>
      rw [List.mapM_cons, List.mapM_cons, ← each a world rfl]
      refine (calm a).result_bind (fun b other same => ?_)
      rw [← ih (fun c last later => each c last (later.trans same))]
      exact (mapM calm rest).result_bind (fun _ _ _ => rfl)

theorem discover (settings : Settings) (root indexDir : Path) :
    Calm (Service.discover settings root indexDir) := by
  refine get (fun world => ?_) (fun world other same => by simp only [same])
  refine (ofExcept _).bind (fun excluded => (ofExcept _).bind (fun found => ?_))
  exact (notes found.notes).bind (fun _ => pure found.paths)

theorem isDirectory (path : Path) : Calm (Service.isDirectory path) :=
  get (fun _ => ofExcept _) (fun world other same => by simp only [same])

theorem readFiles (root : Path) (limit : Int) (paths : List Path) :
    Calm (Service.readFiles root limit paths) := by
  refine get (fun world => ?_) (fun world other same => by simp only [same])
  refine (mapM (fun path => ?_) paths).bind (fun outcomes => pure _)
  refine (ofExcept _).bind (fun outcome => ?_)
  cases outcome with
  | skipped file => exact (note _).bind (fun _ => pure _)
  | source file => exact pure _

/-- Finding and reading the sources of a root changes none of its files. -/
theorem gather (settings : Settings) (root indexDir : Path) :
    Calm (Service.gather settings root indexDir) := by
  refine (isDirectory root).bind (fun found => ?_)
  cases found with
  | true =>
      exact (discover settings root indexDir).bind
        (fun paths => readFiles root settings.maxFileBytes paths)
  | false => exact throw _

theorem buildLogged (previous : Option Reader) (sources : List SourceFile) :
    Calm (Service.buildLogged previous sources) := by
  refine (ofExcept _).bind (fun outcomes => ?_)
  exact (workerNotes _).bind (fun _ => (notes _).bind (fun _ => pure _))

theorem openPrevious (store : Store) : Calm (Service.openPrevious store) := by
  refine get (fun world => ?_) (fun world other same => by simp only [same])
  split
  · exact pure _
  · exact pure _
  · exact (note _).bind (fun _ => pure _)
  · exact throw _

end Calm

end TokenSearch.Run
