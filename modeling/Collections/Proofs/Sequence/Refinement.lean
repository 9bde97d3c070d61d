import Collections.Proofs.Sequence.Representation

set_option autoImplicit false

namespace Collections.Sequence

variable {Outside : Type} {callbacks : Callbacks Outside} {world : World}
  {before : State Outside} {list : Handle Sequence} {values : List Value} {index : Value}

def Reaches (action : Action Outside Answer) (before : State Outside) (asked : Ending → Prop) :
    Prop :=
  Ends action before
    (fun answer after => ∃ next, Represents next after ∧ asked ⟨.ok answer, next⟩)
    (fun failure after => ∃ next, Represents next after ∧ asked ⟨.error failure, next⟩)

section Reaching

variable {action : Action Outside Answer} {asked : Ending → Prop}

theorem Reaches.imp {wanted : Ending → Prop} (reaches : Reaches action before wanted)
    (implies : ∀ ending, wanted ending → asked ending) : Reaches action before asked :=
  Ends.imp reaches
    (fun _ _ ⟨next, stands, told⟩ => ⟨next, stands, implies _ told⟩)
    (fun _ _ ⟨next, stands, told⟩ => ⟨next, stands, implies _ told⟩)

theorem Represents.answers {answer : Answer} (represents : Represents world before)
    (answered : action before = .ok answer before) (told : asked (world.answers answer)) :
    Reaches action before asked := by
  unfold Reaches Ends
  rw [answered]
  exact ⟨world, represents, told⟩

theorem Represents.fails {failure : Failure} (represents : Represents world before)
    (broke : action before = .error failure before) (told : asked (world.fails failure)) :
    Reaches action before asked := by
  unfold Reaches Ends
  rw [broke]
  exact ⟨world, represents, told⟩

theorem Represents.live {operation : ListOperation} {asked : Ending → List Value → Prop}
    (represents : Represents world before) (list : Handle Sequence)
    (stops : ∀ failure, requireLive list operation before = .error failure before →
      action before = .error failure before)
    (goes : ∀ values, Showing list values before → world.elements? list = some values →
      Reaches action before fun ending => asked ending values) :
    Reaches action before fun ending => Live world ending list operation (asked ending) := by
  unfold Live
  cases found : world.elements? list with
  | some values => exact goes values (represents.showing found) found
  | none =>
    exact represents.fails (stops _ (represents.requireLive_dead found operation)) rfl

theorem Represents.within {asked : Ending → Nat → Value → Prop} (represents : Represents world before)
    (showing : Showing list values before) (index : Value)
    (stops : ∀ failure, requireSlot list index before = .error failure before →
      action before = .error failure before)
    (goes : ∀ position element, values[position]? = some element →
      requireSlot list index before = .ok position before →
        Reaches action before fun ending => asked ending position element) :
    Reaches action before fun ending => Within world ending values index (asked ending) := by
  rcases requireSlot_tells showing index with ⟨position, element, names, inside, required⟩ |
    ⟨outside, length, reports, required⟩
  · exact (goes position element inside required).imp fun _ told =>
      .inl ⟨_, _, names, inside, told⟩
  · exact represents.fails (stops _ required) (.inr ⟨outside, length, reports, rfl⟩)

theorem Represents.changes {α : Type} {action : Action Outside α} {told : α → Answer}
    {answer : Answer} {shown : List Value} (represents : Represents world before)
    (live : world.elements? list = some values)
    (changes : Succeeds action before fun result after => told result = answer ∧
      before.ChangesOnly callbacks list after ∧ Showing list shown after) :
    Reaches (action >>= fun result => pure (told result)) before fun ending =>
      ending = (world.put list shown).answers answer := by
  refine (changes.bind fun result after changed => ?_).ends
  obtain ⟨rfl, changed⟩ := changed
  exact Succeeds.of_pure ⟨_, represents.put (Represents.index_lt live) changed, rfl⟩

theorem Represents.making {action : Action Outside (Handle Sequence)} {shown : List Value}
    (represents : Represents world before)
    (makes : Succeeds action before (Makes callbacks before shown)) :
    Reaches (action >>= fun made => pure (.list made)) before fun ending =>
      ending = world.makes shown := by
  refine (makes.bind fun made after makes => ?_).ends
  obtain ⟨rfl, changes, showing⟩ := makes
  rw [represents.size_eq] at changes showing ⊢
  exact Succeeds.of_pure ⟨_, represents.makes rfl changes.others showing, rfl⟩

end Reaching

theorem get_reaches (represents : Represents world before) (list : Handle Sequence) (index : Value) :
    Reaches (perform callbacks (.get list index)) before fun ending =>
      Meets world ending callbacks before (.get list index) := by
  refine represents.live list (fun _ dead => bind_error (bind_error dead)) ?_
  intro values showing live
  have alive := showing.requireLive_eq .get
  refine represents.within showing index
    (fun _ outside => bind_error ((bind_ok alive).trans (bind_error outside))) ?_
  intro position element inside required
  have got : get list index before = .ok element before :=
    (bind_ok alive).trans ((bind_ok required).trans (readSlot_eq showing inside))
  exact represents.answers (bind_ok got) rfl

theorem set_reaches (represents : Represents world before) (list : Handle Sequence)
    (index value : Value) :
    Reaches (perform callbacks (.set list index value)) before fun ending =>
      Meets world ending callbacks before (.set list index value) := by
  refine represents.live list (fun _ dead => bind_error (bind_error dead)) ?_
  intro values showing live
  have alive := showing.requireLive_eq .set
  refine represents.within showing index
    (fun _ outside => bind_error ((bind_ok alive).trans (bind_error outside))) ?_
  intro position element inside required
  have below := (List.getElem?_eq_some_iff.1 inside).1
  have written : Succeeds (set list index value) before fun _ after => Answer.done = .done ∧
      before.ChangesOnly callbacks list after ∧ Showing list (values.set position value) after := by
    refine Succeeds.bind_eq alive (Succeeds.bind_eq required ?_)
    exact (changeElements_shows callbacks showing (·.write position value)
      fun _ shows => shows.write below value).imp fun _ _ changed => ⟨rfl, changed⟩
  exact represents.changes live written

theorem append_reaches (represents : Represents world before) (list : Handle Sequence)
    (value : Value) :
    Reaches (perform callbacks (.append list value)) before fun ending =>
      Meets world ending callbacks before (.append list value) := by
  refine represents.live list (fun _ dead => bind_error (bind_error dead)) ?_
  intro values showing live
  exact represents.changes live
    ((append_appends callbacks showing value).imp fun _ _ changed => ⟨rfl, changed⟩)

theorem appendAll_reaches (represents : Represents world before) (list source : Handle Sequence) :
    Reaches (perform callbacks (.appendAll list source)) before fun ending =>
      Meets world ending callbacks before (.appendAll list source) := by
  refine represents.live list (fun _ dead => bind_error (bind_error dead)) ?_
  intro values showing live
  have alive := showing.requireLive_eq .appendAll
  by_cases same : source = list
  · have refused : appendAll callbacks list source before = .error (.list .selfAppend) before := by
      apply (bind_ok alive).trans
      rw [if_pos same]
      rfl
    apply represents.fails (bind_error refused)
    rw [if_pos same]
  · simp only [if_neg same]
    rw [← represents.elements_eq]
    exact represents.changes live
      ((appendAll_appends callbacks showing same).imp fun _ _ changed => ⟨rfl, changed⟩)

theorem removeAt_reaches (callbacks : Callbacks Outside) (represents : Represents world before)
    (showing : Showing list values before) (live : world.elements? list = some values)
    (index : Value) :
    Reaches (perform callbacks (.remove list index)) before fun ending =>
      Within world ending values index fun position element =>
        ending = (world.put list (values.eraseIdx position)).answers (.item element) := by
  have alive := showing.requireLive_eq .remove
  refine represents.within showing index
    (fun _ outside => bind_error ((bind_ok alive).trans (bind_error outside))) ?_
  intro position element inside required
  have removed : Succeeds (remove list index) before fun removed after =>
      Answer.item removed = .item element ∧ before.ChangesOnly callbacks list after ∧
        Showing list (values.eraseIdx position) after := by
    refine Succeeds.bind_eq alive (Succeeds.bind_eq required ?_)
    exact (takeOut_takes callbacks showing inside).imp
      fun _ _ ⟨taken, changed⟩ => ⟨taken ▸ rfl, changed⟩
  exact represents.changes live removed

theorem remove_reaches (represents : Represents world before) (list : Handle Sequence)
    (index : Value) :
    Reaches (perform callbacks (.remove list index)) before fun ending =>
      Meets world ending callbacks before (.remove list index) :=
  represents.live list (fun _ dead => bind_error (bind_error dead)) fun _ showing live =>
    removeAt_reaches callbacks represents showing live index

theorem removeFirst_reaches (represents : Represents world before) (list : Handle Sequence) :
    Reaches (perform callbacks (.removeFirst list)) before fun ending =>
      Meets world ending callbacks before (.removeFirst list) := by
  refine represents.live list (fun _ dead => bind_error (bind_error dead)) ?_
  intro values showing live
  refine (removeAt_reaches callbacks represents showing live (.number (.zero false))).imp
    fun ending within => ?_
  rcases within with ⟨position, element, names, inside, told⟩ | ⟨outside, length, same, told⟩
  · obtain rfl := Int.natCast_eq_zero.1 ((Value.names_zero position).1 names)
    cases values with
    | nil => cases inside
    | cons first rest =>
      cases inside
      exact told
  · have none : values.length ≤ 0 := outside 0 ((Value.names_zero 0).2 rfl)
    obtain rfl := List.length_eq_zero_iff.1 (Nat.le_zero.1 none)
    exact ⟨length, Number.isZero_of_same same, told⟩

theorem last_reaches {operation : ListOperation} {action : Action Outside Answer}
    {asked : Ending → Value → Prop} (represents : Represents world before)
    (showing : Showing list values before)
    (stops : ∀ failure, requireElement list operation before = .error failure before →
      action before = .error failure before)
    (goes : ∀ last, values[values.length - 1]? = some last →
      requireElement list operation before = .ok () before →
        Reaches action before fun ending => asked ending last) :
    Reaches action before fun ending =>
      match values.getLast? with
      | none => ending = world.fails (.list (.empty operation))
      | some last => asked ending last := by
  obtain ⟨held, shows, _, read⟩ := showing.state_eq
  have required : requireElement list operation before =
      (if held.length = 0 then throw (.list (.empty operation)) else pure () :
        Action Outside Unit) before :=
    (bind_ok (showing.requireLive_eq operation)).trans (bind_ok read)
  rw [shows.length_eq] at required
  cases found : values.getLast? with
  | none =>
    rw [List.getLast?_eq_none_iff.1 found, if_pos List.length_nil] at required
    exact represents.fails (stops _ required) rfl
  | some last =>
    have some : values.length ≠ 0 := by
      rintro none
      rw [List.length_eq_zero_iff.1 none] at found
      cases found
    rw [if_neg some] at required
    rw [List.getLast?_eq_getElem?] at found
    exact goes last found required

theorem peek_reaches (represents : Represents world before) (list : Handle Sequence) :
    Reaches (perform callbacks (.peek list)) before fun ending =>
      Meets world ending callbacks before (.peek list) := by
  refine represents.live list (fun _ dead => bind_error (bind_error (bind_error dead))) ?_
  intro values showing _
  refine last_reaches represents showing (fun _ none => bind_error (bind_error none)) ?_
  intro last found required
  obtain ⟨held, shows, _, read⟩ := showing.state_eq
  have peeked : peek list before = .ok last before := by
    refine (bind_ok required).trans ((bind_ok read).trans ?_)
    rw [shows.length_eq]
    exact readSlot_eq showing found
  exact represents.answers (bind_ok peeked) rfl

theorem pop_reaches (represents : Represents world before) (list : Handle Sequence) :
    Reaches (perform callbacks (.pop list)) before fun ending =>
      Meets world ending callbacks before (.pop list) := by
  refine represents.live list (fun _ dead => bind_error (bind_error (bind_error dead))) ?_
  intro values showing live
  refine last_reaches represents showing (fun _ none => bind_error (bind_error none)) ?_
  intro last found required
  obtain ⟨held, shows, _, read⟩ := showing.state_eq
  have popped : Succeeds (pop list) before fun popped after => Answer.item popped = .item last ∧
      before.ChangesOnly callbacks list after ∧ Showing list values.dropLast after := by
    refine Succeeds.bind_eq required (Succeeds.bind_eq read ?_)
    rw [shows.length_eq, ← List.eraseIdx_length_sub_one]
    exact (takeOut_takes callbacks showing found).imp
      fun _ _ ⟨taken, changed⟩ => ⟨taken ▸ rfl, changed⟩
  exact represents.changes live popped

theorem indexOf_eq (showing : Showing list values before) (value : Value) :
    indexOf list value before =
      .ok (values.findIdx? fun element => element.identical value) before := by
  obtain ⟨held, shows, _, read⟩ := showing.state_eq
  refine (bind_ok (showing.requireLive_eq .indexOf)).trans ((bind_ok read).trans ?_)
  rw [shows.find?_eq]
  rfl

theorem indexOf_reaches (represents : Represents world before) (list : Handle Sequence)
    (value : Value) :
    Reaches (perform callbacks (.indexOf list value)) before fun ending =>
      Meets world ending callbacks before (.indexOf list value) := by
  refine represents.live list (fun _ dead => bind_error (bind_error dead)) ?_
  intro values showing _
  exact represents.answers (bind_ok (indexOf_eq showing value)) rfl

theorem contains_reaches (represents : Represents world before) (list : Handle Sequence)
    (value : Value) :
    Reaches (perform callbacks (.contains list value)) before fun ending =>
      Meets world ending callbacks before (.contains list value) := by
  refine represents.live list (fun _ dead => bind_error (bind_error (bind_error dead))) ?_
  intro values showing _
  have told : contains list value before =
      .ok (values.any fun element => element.identical value) before := by
    rw [← List.findIdx?_isSome]
    exact bind_ok (indexOf_eq showing value)
  exact represents.answers (bind_ok told) rfl

theorem World.put_self (live : world.elements? list = some values) : world.put list values = world := by
  have entry : world[list.index]? = some (some values) := Option.join_eq_some_iff.1 live
  obtain ⟨inside, same⟩ := List.getElem?_eq_some_iff.1 entry
  rw [World.put, ← same, List.set_getElem_self]

theorem removeItem_reaches (represents : Represents world before) (list : Handle Sequence)
    (value : Value) :
    Reaches (perform callbacks (.removeItem list value)) before fun ending =>
      Meets world ending callbacks before (.removeItem list value) := by
  refine represents.live list (fun _ dead => bind_error (bind_error (bind_error dead))) ?_
  intro values showing live
  have found := indexOf_eq showing value
  rw [← List.findIdx?_isSome, List.eraseP_eq_eraseIdx]
  cases position : values.findIdx? fun element => element.identical value with
  | none =>
    rw [position] at found
    have told : removeItem list value before = .ok false before := bind_ok found
    refine represents.answers (bind_ok told) ?_
    rw [World.put_self live]
    rfl
  | some slot =>
    rw [position] at found
    obtain ⟨inside, _⟩ := List.findIdx?_eq_some_iff_getElem.1 position
    have removed : Succeeds (removeItem list value) before fun removed after =>
        Answer.flag removed = .flag true ∧ before.ChangesOnly callbacks list after ∧
          Showing list (values.eraseIdx slot) after := by
      apply Succeeds.bind_eq found
      refine (takeOut_takes callbacks showing (List.getElem?_eq_getElem inside)).bind fun _ after taken => ?_
      exact Succeeds.of_pure ⟨rfl, taken.2⟩
    exact represents.changes live removed

theorem reverse_reaches (represents : Represents world before) (list : Handle Sequence) :
    Reaches (perform callbacks (.reverse list)) before fun ending =>
      Meets world ending callbacks before (.reverse list) := by
  refine represents.live list (fun _ dead => bind_error (bind_error dead)) ?_
  intro values showing live
  have turned : Succeeds (reverse list) before fun _ after => Answer.done = .done ∧
      before.ChangesOnly callbacks list after ∧ Showing list values.reverse after := by
    apply Succeeds.bind_eq (showing.requireLive_eq .reverse)
    exact (changeElements_shows callbacks showing turn fun _ shows => shows.turn).imp
      fun _ _ changed => ⟨rfl, changed⟩
  exact represents.changes live turned

theorem ofNulls_reaches (callbacks : Callbacks Outside) (represents : Represents world before) (length : Number)
    (options : ListOptions) :
    Reaches (ofNulls length options >>= fun made => pure (.list made)) before fun ending =>
      Measured world ending (.number length) fun count =>
        ending = world.makes (List.replicate count .null) := by
  unfold Measured
  simp only [Value.names_number]
  unfold ofNulls
  cases told : length.toInt? with
  | none => exact represents.fails (bind_error rfl) (.inr (.inr ⟨nofun, rfl⟩))
  | some whole =>
    cases whole with
    | negSucc below =>
      exact represents.fails (bind_error rfl)
        (.inr (.inl ⟨length, _, Int.negSucc_lt_zero below, rfl, rfl, rfl⟩))
    | ofNat count =>
      have shows : Sequence.Shows { create options with
          storage := .filled count .null
          length := count
          negativeZero := length.isNegativeZero } (List.replicate count .null) := by
        refine ⟨rfl, Storage.Lays.filled count .null, List.length_replicate.symm, fun negative => ?_⟩
        rw [Number.toInt?_of_isNegativeZero negative] at told
        cases told
        rfl
      dsimp only
      by_cases fits : count < 1 <<< 32
      · rw [if_pos fits]
        refine (represents.making (add_makes callbacks shows before)).imp fun ending made => ?_
        refine .inl ⟨count, rfl, ?_⟩
        rwa [if_pos fits]
      · rw [if_neg fits]
        refine represents.fails (bind_error rfl) (.inl ⟨count, rfl, ?_⟩)
        rw [if_neg fits]

theorem withLength_reaches (represents : Represents world before) (length : Value)
    (options : ListOptions) :
    Reaches (perform callbacks (.withLength length options)) before fun ending =>
      Meets world ending callbacks before (.withLength length options) := by
  cases length with
  | number length => exact ofNulls_reaches callbacks represents length options
  | _ =>
    refine represents.fails (bind_error rfl) (.inr (.inr ⟨?_, rfl⟩))
    rintro whole ⟨number, named, _⟩
    cases named

theorem toList_reaches (copies : callbacks.CopyPlainStorages) (represents : Represents world before)
    (list : Handle Sequence) :
    Reaches (perform callbacks (.toList list)) before fun ending =>
      Meets world ending callbacks before (.toList list) := by
  refine represents.live list (fun _ dead => bind_error (bind_error dead)) ?_
  intro values showing _
  have listed : Succeeds (toList callbacks list) before fun told after =>
      before.Advances after ∧ told = values := by
    apply Succeeds.bind_eq (showing.requireLive_eq .toList)
    refine (copyOut_copies copies showing).bind fun copied after ⟨advances, same⟩ => ?_
    refine Succeeds.of_pure ⟨advances, ?_⟩
    rw [same, List.map_map]
    exact List.map_id values
  refine (listed.bind fun told after ⟨advances, same⟩ => ?_).ends
  exact Succeeds.of_pure ⟨world, represents.of_containers_eq advances.containers, same ▸ rfl⟩

theorem filter_reaches {test : Value → Action Outside Bool}
    (quiet : ∀ value state, Succeeds (test value) state fun _ after =>
      after.containers = state.containers)
    (represents : Represents world before) (list : Handle Sequence) :
    Reaches (perform callbacks (.filter list test)) before fun ending =>
      Meets world ending callbacks before (.filter list test) := by
  refine represents.live list (fun _ dead => bind_error (bind_error dead)) ?_
  intro values showing _
  refine ((filter_filters showing quiet).bind fun made after filtered => ?_).ends
  obtain ⟨rfl, kept, early, sifts, _, filtered, _, others⟩ := filtered
  rw [represents.size_eq] at sifts filtered others ⊢
  rw [List.take_length] at sifts
  exact Succeeds.of_pure ⟨_, represents.makes rfl others filtered, kept, early, sifts, rfl⟩

theorem destroy_reaches (quiet : callbacks.QuietDestructors) (represents : Represents world before)
    (list : Handle Sequence) :
    Reaches (perform callbacks (.destroy list)) before fun ending =>
      Meets world ending callbacks before (.destroy list) := by
  refine represents.live list (fun _ dead => bind_error (bind_error dead)) ?_
  intro values showing live
  refine ((destroy_releases quiet showing).bind fun _ after released => ?_).ends
  obtain ⟨others, held, there, gone⟩ := released
  have stands : StandsFor held none := gone
  exact Succeeds.of_pure ⟨_, represents.becomes (Represents.index_lt live) others there stands, rfl⟩

theorem perform_reaches (quiet : callbacks.QuietDestructors)
    (copies : callbacks.CopyPlainStorages) (represents : Represents world before)
    (request : Request Outside) (fits : Fits before request) :
    Reaches (perform callbacks request) before fun ending =>
      Meets world ending callbacks before request := by
  cases request with
  | empty options => exact represents.making (add_makes callbacks (.create options) before)
  | withLength length options => exact withLength_reaches represents length options
  | ofValues values options => exact represents.making (ofValues_makes callbacks values options before)
  | join lists options =>
    have joined := represents.making (join_makes callbacks lists options fits)
    simp only [represents.elements_eq] at joined
    exact joined
  | get list index => exact get_reaches represents list index
  | set list index value => exact set_reaches represents list index value
  | append list value => exact append_reaches represents list value
  | appendAll list source => exact appendAll_reaches represents list source
  | remove list index => exact remove_reaches represents list index
  | removeFirst list => exact removeFirst_reaches represents list
  | pop list => exact pop_reaches represents list
  | removeItem list value => exact removeItem_reaches represents list value
  | peek list => exact peek_reaches represents list
  | indexOf list value => exact indexOf_reaches represents list value
  | contains list value => exact contains_reaches represents list value
  | copy list destructor =>
    refine represents.live list (fun _ dead => bind_error (bind_error dead)) ?_
    intro values showing _
    exact represents.making (copy_makes callbacks showing destructor)
  | reverse list => exact reverse_reaches represents list
  | filter list test => exact filter_reaches fits represents list
  | toList list => exact toList_reaches copies represents list
  | destroy list => exact destroy_reaches quiet represents list

section Runs

def Meanwhile (before after : State Outside) : Prop :=
  ∀ list, Option.Rel (fun early late => ∃ destructor, late = { early with destructor })
    (before.containers.lists.cell? list) (after.containers.lists.cell? list)

def usage (callbacks : Callbacks Outside) : Usage Outside (Request Outside) Answer where
  perform := perform callbacks
  Counts request before _ _ := Fits before request
  Between := Meanwhile

inductive Follows (callbacks : Callbacks Outside) (start : State Outside) :
    List (Event (Request Outside) Answer) → State Outside → World → Prop where
  | start : Follows callbacks start [] start []
  | request {history : List (Event (Request Outside) Answer)} {before after : State Outside}
      {world next : World} {request : Request Outside} {outcome : Except Failure Answer}
      (earlier : Follows callbacks start history before world)
      (done : attempt (perform callbacks request) before = (outcome, after))
      (meets : Meets world ⟨outcome, next⟩ callbacks before request) :
      Follows callbacks start (history ++ [⟨request, outcome⟩]) after next
  | meanwhile {history : List (Event (Request Outside) Answer)} {before after : State Outside}
      {world : World} (earlier : Follows callbacks start history before world)
      (others : Meanwhile before after) : Follows callbacks start history after world

theorem StandsFor.exchange {held : Sequence} {entry : Option (List Value)}
    (stands : StandsFor held entry) (destructor : Option String) :
    StandsFor { held with destructor } entry := by
  cases entry with
  | none => exact stands
  | some values => exact ⟨stands.live, stands.lays, stands.length_eq, stands.negativeZero⟩

theorem Represents.meanwhile {after : State Outside} (represents : Represents world before)
    (others : Meanwhile before after) : Represents world after := by
  intro list
  have early := represents list
  have late := others list
  revert early late
  generalize before.containers.lists.cell? list = cell
  generalize after.containers.lists.cell? list = exchanged
  generalize world[list.index]? = entry
  rintro (stands | _) (⟨destructor, same⟩ | _)
  · exact .some (same ▸ stands.exchange destructor)
  · exact .none

theorem perform_meets (quiet : callbacks.QuietDestructors)
    (copies : callbacks.CopyPlainStorages) (represents : Represents world before)
    (request : Request Outside) (fits : Fits before request) :
    ∃ outcome after next, attempt (perform callbacks request) before = (outcome, after) ∧
      Represents next after ∧ Meets world ⟨outcome, next⟩ callbacks before request := by
  rcases (perform_reaches quiet copies represents request fits).attempt with
    ⟨answer, after, ended, next, stands, meets⟩ | ⟨failure, after, ended, next, stands, meets⟩
  · exact ⟨.ok answer, after, next, ended, stands, meets⟩
  · exact ⟨.error failure, after, next, ended, stands, meets⟩

theorem runs_follow (quiet : callbacks.QuietDestructors) (copies : callbacks.CopyPlainStorages)
    {start final : State Outside} {history : List (Event (Request Outside) Answer)}
    (blank : start.containers.lists = {}) (run : (usage callbacks).Runs start history final) :
    ∃ world, Follows callbacks start history final world ∧ Represents world final := by
  -- The world is told by the endings alone; that the lists represent it is carried along.
  refine run.keeps (fun history state =>
    ∃ world, Follows callbacks start history state world ∧ Represents world state) ?_ ?_ ?_
  · exact ⟨[], .start, .start blank⟩
  · intro history before request outcome after ⟨world, follows, represents⟩ done fits
    obtain ⟨_, _, next, ended, stands, meets⟩ :=
      perform_meets quiet copies represents request fits
    obtain ⟨rfl, rfl⟩ := Prod.mk.inj (done.symm.trans ended)
    exact ⟨next, follows.request done meets, stands⟩
  · intro history before after ⟨world, follows, represents⟩ others
    exact ⟨world, follows.meanwhile others, represents.meanwhile others⟩

/--
However many lists are made and whatever is asked of them, in any order, the lists stand for the plain
sequences that the requests leave, and every further request ends as it should for these.
-/
theorem lists_refine_sequences (quiet : callbacks.QuietDestructors)
    (copies : callbacks.CopyPlainStorages) (start final : State Outside)
    (blank : start.containers.lists = {}) (history : List (Event (Request Outside) Answer))
    (run : (usage callbacks).Runs start history final) :
    ∃ world, Follows callbacks start history final world ∧ Represents world final ∧
      ∀ request, Fits final request → ∃ outcome after next,
        attempt (perform callbacks request) final = (outcome, after) ∧ Represents next after ∧
          Meets world ⟨outcome, next⟩ callbacks final request := by
  obtain ⟨world, follows, represents⟩ := runs_follow quiet copies blank run
  exact ⟨world, follows, represents, fun request fits =>
    perform_meets quiet copies represents request fits⟩

theorem lists_refine_sequences_after_filter :
    ∃ final last,
      (usage (Callbacks.plain Unit fun _ => compareOn Value.rank)).Runs ⟨{}, {}, ()⟩
        [⟨.ofValues [.integer 7, .null, .integer 5] {}, .ok (.list ⟨0⟩)⟩,
          ⟨.filter ⟨0⟩ fun value => return !value.isNull, .ok (.list ⟨1⟩)⟩] final ∧
        attempt (perform (Callbacks.plain Unit fun _ => compareOn Value.rank) (.toList ⟨1⟩)) final =
          (.ok (.items [.integer 7, .integer 5]), last) := by
  have refines := lists_refine_sequences
    (Callbacks.plain_quiet Unit fun _ => compareOn Value.rank)
    (Callbacks.plain_copyPlainStorages Unit _) ⟨{}, {}, ()⟩
  obtain ⟨world, _, represents, requests⟩ := refines _ rfl [] .start
  obtain rfl : world = [] := represents.unique (.start rfl)
  obtain ⟨_, listed, _, made, represents, meets⟩ :=
    requests (.ofValues [.integer 7, .null, .integer 5] {}) trivial
  obtain ⟨rfl, rfl⟩ := Ending.mk.inj meets
  have run : (usage (Callbacks.plain Unit fun _ => compareOn Value.rank)).Runs ⟨{}, {}, ()⟩
      [⟨.ofValues [.integer 7, .null, .integer 5] {}, .ok (.list ⟨0⟩)⟩] listed :=
    Usage.Runs.start.command made trivial
  obtain ⟨world, _, again, requests⟩ := refines _ rfl _ run
  obtain rfl := again.unique represents
  have quiet (value : Value) (state : State Unit) : Succeeds (pure !value.isNull) state
      fun _ after => after.containers = state.containers := Succeeds.of_pure rfl
  obtain ⟨_, filtered, _, made, represents, kept, _, sifts, ending⟩ :=
    requests (.filter ⟨0⟩ fun value => return !value.isNull) quiet
  obtain rfl := sifts.eq_filter fun value state => Succeeds.of_pure rfl
  obtain ⟨rfl, rfl⟩ := Ending.mk.inj ending
  have run : (usage (Callbacks.plain Unit fun _ => compareOn Value.rank)).Runs ⟨{}, {}, ()⟩
      [⟨.ofValues [.integer 7, .null, .integer 5] {}, .ok (.list ⟨0⟩)⟩,
        ⟨.filter ⟨0⟩ fun value => return !value.isNull, .ok (.list ⟨1⟩)⟩] filtered :=
    Usage.Runs.command run made quiet
  obtain ⟨world, _, again, requests⟩ := refines _ rfl _ run
  obtain rfl := again.unique represents
  obtain ⟨_, last, _, listed, _, meets⟩ := requests (.toList ⟨1⟩) trivial
  obtain ⟨rfl, rfl⟩ := Ending.mk.inj meets
  exact ⟨filtered, last, run, listed⟩

end Runs

end Collections.Sequence
