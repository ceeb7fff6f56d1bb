import Rehearsal.Echo

/-!
# Words and joins undo each other

A text splits at any blank, so the words of two texts with a blank between them are those of the
one and then those of the other (`Text.wordRuns_append_blank`).  A join puts a blank between
neighbours and none elsewhere: its words are the words of its parts (`Text.words_join`), whatever
blanks the parts have.  A collector keeps the parts that it has accepted and nothing else
(`Collector.parts_pushAll`), so its words are theirs (`Collector.words_of_collected`).
-/

namespace Rehearsal

/-! ## Words of a text -/

namespace Text

/-- No character is a blank. -/
def Solid (text : List Char) : Prop := ∀ c ∈ text, isBlank c = false

instance (text : List Char) : Decidable (Solid text) :=
  inferInstanceAs (Decidable (∀ c ∈ text, isBlank c = false))

theorem wordRuns_append_blank {c : Char} (hc : isBlank c = true) (before after : List Char) :
    wordRuns (before ++ c :: after) = wordRuns before ++ wordRuns after := by
  unfold wordRuns
  rw [List.splitOnP_append_cons before after hc, List.filter_append]

theorem wordRuns_of_solid {text : List Char} (hne : text ≠ []) (h : Solid text) :
    wordRuns text = [text] := by
  unfold wordRuns
  rw [List.splitOnP_eq_singleton h, List.filter_cons_of_pos (by simpa using hne), List.filter_nil]

/-- No piece of a split contains a character that it was split at. -/
theorem solid_of_mem_splitOnP {text run : List Char} (h : run ∈ text.splitOnP isBlank) :
    Solid run := by
  induction text generalizing run with
  | nil =>
      rw [List.splitOnP_nil, List.mem_singleton] at h
      subst h
      simp [Solid]
  | cons c rest ih =>
      rw [List.splitOnP_cons_eq_if_modifyHead] at h
      obtain ⟨first, others, hsplit⟩ :=
        List.exists_cons_of_ne_nil (List.splitOnP_ne_nil isBlank rest)
      split at h
      · rcases List.mem_cons.1 h with rfl | h
        · simp [Solid]
        · exact ih h
      · rename_i hc
        rw [hsplit, List.modifyHead_cons] at h
        rw [hsplit] at ih
        rcases List.mem_cons.1 h with rfl | h
        · exact List.forall_mem_cons.2 ⟨Bool.eq_false_iff.2 hc, ih List.mem_cons_self⟩
        · exact ih (List.mem_cons_of_mem first h)

theorem mem_wordRuns {text run : List Char} (h : run ∈ wordRuns text) : run ≠ [] ∧ Solid run := by
  obtain ⟨hrun, hne⟩ := List.mem_filter.1 h
  exact ⟨by simpa using hne, solid_of_mem_splitOnP hrun⟩

theorem mem_words {text word : String} (h : word ∈ words text) :
    word ≠ "" ∧ Solid word.toList := by
  obtain ⟨run, hrun, rfl⟩ := List.mem_map.1 h
  obtain ⟨hne, hsolid⟩ := mem_wordRuns hrun
  rw [String.toList_ofList]
  exact ⟨by simpa using hne, hsolid⟩

theorem words_of_solid {text : String} (hne : text ≠ "") (h : Solid text.toList) :
    words text = [text] := by
  unfold words
  rw [wordRuns_of_solid (by simpa using hne) h, List.map_singleton, String.ofList_toList]

theorem words_empty : words "" = [] := by decide

theorem words_append_space (first second : String) :
    words (first ++ " " ++ second) = words first ++ words second := by
  unfold words
  rw [← List.map_append, ← wordRuns_append_blank isBlank_space]
  simp

/-! ## Joins -/

/-- The words of a join are the words of its parts, in order. -/
theorem words_join (parts : List String) : words (join parts) = parts.flatMap words := by
  unfold join
  induction parts with
  | nil =>
      rw [String.intercalate_nil]
      exact words_empty
  | cons first rest ih =>
      by_cases hrest : rest = []
      · subst hrest
        simp
      · rw [String.intercalate_cons_of_ne_nil hrest, words_append_space, ih, List.flatMap_cons]

theorem flatMap_words_eq_self_iff {parts : List String} :
    parts.flatMap words = parts ↔ ∀ part ∈ parts, part ≠ "" ∧ Solid part.toList := by
  constructor
  · intro h part hpart
    rw [← h] at hpart
    obtain ⟨text, -, hword⟩ := List.mem_flatMap.1 hpart
    exact mem_words hword
  · intro h
    induction parts with
    | nil => rfl
    | cons first rest ih =>
        obtain ⟨⟨hne, hsolid⟩, hrest⟩ := List.forall_mem_cons.1 h
        rw [List.flatMap_cons, words_of_solid hne hsolid, ih hrest, List.singleton_append]

theorem words_join_words (text : String) : words (join (words text)) = words text := by
  rw [words_join, flatMap_words_eq_self_iff]
  exact fun _ => mem_words

end Text

/-! ## Collectors -/

/-- The item asks for no failure. -/
def EchoItem.AsksNone (item : EchoItem) : Prop := ∀ status ∈ item.error, status.code = 0

instance (item : EchoItem) : Decidable item.AsksNone :=
  inferInstanceAs (Decidable (∀ status ∈ item.error, status.code = 0))

namespace Collector

variable {collector : Collector} {item : EchoItem}

theorem push_of_asksNone (h : item.AsksNone) :
    collector.push item = .ok ⟨collector.parts ++ [item.content]⟩ := by
  unfold push EchoItem.echo
  rw [check_of_code_eq_zero h]
  rfl

theorem push_of_not_asksNone (collector : Collector) (h : ¬ item.AsksNone) :
    ∃ status, item.error = some status ∧ collector.push item = .error (.scripted status) := by
  obtain ⟨content, error⟩ := item
  cases error with
  | none => exact absurd (by simp [EchoItem.AsksNone]) h
  | some status =>
      refine ⟨status, rfl, ?_⟩
      have hcode : status.code ≠ 0 := by simpa [EchoItem.AsksNone] using h
      unfold push EchoItem.echo
      rw [check_of_code_ne_zero hcode]
      rfl

/-- The contents of the items that ask for no failure, in order. -/
def accepted (items : List EchoItem) : List String :=
  (items.filter (·.AsksNone)).map (·.content)

/-- Items that are refused leave no trace. -/
theorem parts_pushAll (collector : Collector) (items : List EchoItem) :
    (collector.pushAll items).parts = collector.parts ++ accepted items := by
  induction items generalizing collector with
  | nil => simp [pushAll, accepted]
  | cons item rest ih =>
      by_cases hitem : item.AsksNone
      · simp [pushAll, push_of_asksNone hitem, ih, accepted, hitem]
      · obtain ⟨status, -, hpush⟩ := push_of_not_asksNone collector hitem
        simp [pushAll, hpush, ih, accepted, hitem]

/-- The text that a new collector makes of some items. -/
def collected (items : List EchoItem) : String := (pushAll {} items).finish

/-- What is collected of the words of a text. -/
def respaced (text : String) : String :=
  collected ((Text.words text).map fun word => { content := word })

theorem collected_eq (items : List EchoItem) : collected items = Text.join (accepted items) := by
  unfold collected finish
  rw [parts_pushAll, List.nil_append]

/-- Contents without a status are all accepted. -/
theorem accepted_plain (contents : List String) :
    accepted (contents.map fun content => { content }) = contents := by
  have hplain : ∀ item ∈ contents.map fun content => ({ content } : EchoItem),
      decide item.AsksNone = true := by
    intro item hitem
    obtain ⟨content, -, rfl⟩ := List.mem_map.1 hitem
    exact decide_eq_true fun status hstatus => by cases hstatus
  rw [accepted, List.filter_eq_self.2 hplain, List.map_map]
  exact List.map_id _

theorem respaced_eq (text : String) : respaced text = Text.join (Text.words text) := by
  rw [respaced, collected_eq, accepted_plain]

/-- A collector takes exactly the items that ask for no failure, and the words of what it has taken
come back from its text in order, however often the others try.  So a text of the same words comes
of collecting the words of a text, and collecting them again changes nothing more; and parts come
back as they were if each is a word. -/
theorem words_come_back :
    (∀ (collector : Collector) (item : EchoItem),
      (∃ later, collector.push item = .ok later) ↔ item.AsksNone) ∧
    (∀ items : List EchoItem, (pushAll {} items).parts = accepted items ∧
      Text.words (collected items) = (accepted items).flatMap Text.words) ∧
    (∀ text : String, Text.words (respaced text) = Text.words text ∧
      respaced (respaced text) = respaced text) ∧
    ∀ items : List EchoItem, Text.words (collected items) = accepted items ↔
      ∀ content ∈ accepted items, content ≠ "" ∧ Text.Solid content.toList := by
  refine ⟨fun collector item => ⟨?_, fun h => ⟨_, push_of_asksNone h⟩⟩, fun items => ⟨?_, ?_⟩,
    fun text => ⟨?_, ?_⟩, fun items => ?_⟩
  · rintro ⟨later, hlater⟩
    refine Decidable.byContradiction fun hasks => ?_
    obtain ⟨status, -, hpush⟩ := push_of_not_asksNone collector hasks
    rw [hpush] at hlater
    cases hlater
  · rw [parts_pushAll, List.nil_append]
  · rw [collected_eq, Text.words_join]
  · rw [respaced_eq, Text.words_join_words]
  · rw [respaced_eq (respaced text), respaced_eq text, Text.words_join_words]
  · rw [collected_eq, Text.words_join]
    exact Text.flatMap_words_eq_self_iff

/-- Contents with blanks at their edges and inside, one that is empty, and one that is refused. -/
def blankEdged : List EchoItem :=
  [⟨"\u3000up\u00a0 and", none⟩, ⟨"lost words", some ⟨5, "gone"⟩⟩, ⟨"", none⟩,
    ⟨"down\n", some ⟨0, "fine"⟩⟩]

theorem words_come_back_blankEdged :
    (pushAll {} blankEdged).parts = ["\u3000up\u00a0 and", "", "down\n"] ∧
      Text.words (collected blankEdged) = ["up", "and", "down"] ∧
      Text.words (collected blankEdged) ≠ accepted blankEdged := by
  obtain ⟨-, hitems, -, hback⟩ := words_come_back
  obtain ⟨hparts, hwords⟩ := hitems blankEdged
  rw [Ne, hback, hparts, hwords]
  exact ⟨by decide, by decide, fun hall => (hall "" (by decide)).1 rfl⟩

end Collector

end Rehearsal
