import Mathlib.Data.List.Infix

/-!
# Topic names and topic filters

`src/ipc/topic.rs`. A `Topic` is a validated name, a `TopicPrefix` a validated
prefix, and a `TopicFilter` one of the two. Names are lists of characters: the
Rust `str::starts_with` is a byte prefix test, and on valid UTF-8 text a byte
prefix that is itself valid text is a character prefix, so nothing is lost.

The validity conditions of `Topic::new` and `TopicPrefix::new` are fields of the
two structures, so a topic that `Topic::new` would reject cannot be built. The
main result, `containsFilter_iff_overlap`, says that the pairwise test
`contains_filter` used by the exclusion check is exactly the relation "some
topic is matched by both filters".
-/

namespace D7os.Ipc

/-- Characters allowed in topic names: `a-zA-Z0-9_/`. -/
def topicChar (c : Char) : Bool :=
  c.isAlphanum || c == '_' || c == '/'

/-- What `Topic::new` checks: nonempty, no leading or trailing `/`, allowed characters. -/
structure TopicName (s : List Char) : Prop where
  nonempty : s ≠ []
  no_leading : s.head? ≠ some '/'
  no_trailing : s.getLast? ≠ some '/'
  chars : ∀ c ∈ s, topicChar c = true

/-- What `TopicPrefix::new` checks: as `TopicName`, but a trailing `/` is allowed. -/
structure PrefixName (s : List Char) : Prop where
  nonempty : s ≠ []
  no_leading : s.head? ≠ some '/'
  chars : ∀ c ∈ s, topicChar c = true

/-- The checks of `Topic::new` as one boolean, in the order the code makes them. -/
def topicNameOk (s : List Char) : Bool :=
  !s.isEmpty && !(s.head? == some '/' || s.getLast? == some '/') && s.all topicChar

/-- The checks of `TopicPrefix::new` as one boolean. -/
def prefixNameOk (s : List Char) : Bool :=
  !s.isEmpty && !(s.head? == some '/') && s.all topicChar

theorem topicNameOk_iff (s : List Char) : topicNameOk s = true ↔ TopicName s := by
  simp only [topicNameOk, Bool.and_eq_true, Bool.not_eq_true', Bool.or_eq_false_iff,
    beq_eq_false_iff_ne, List.isEmpty_eq_false_iff, List.all_eq_true]
  exact ⟨fun ⟨⟨a, b, c⟩, d⟩ => ⟨a, b, c, d⟩, fun ⟨a, b, c, d⟩ => ⟨⟨a, b, c⟩, d⟩⟩

theorem prefixNameOk_iff (s : List Char) : prefixNameOk s = true ↔ PrefixName s := by
  simp only [prefixNameOk, Bool.and_eq_true, Bool.not_eq_true', beq_eq_false_iff_ne,
    List.isEmpty_eq_false_iff, List.all_eq_true]
  exact ⟨fun ⟨⟨a, b⟩, c⟩ => ⟨a, b, c⟩, fun ⟨a, b, c⟩ => ⟨⟨a, b⟩, c⟩⟩

instance (s : List Char) : Decidable (TopicName s) :=
  decidable_of_iff _ (topicNameOk_iff s)

instance (s : List Char) : Decidable (PrefixName s) :=
  decidable_of_iff _ (prefixNameOk_iff s)

/-- `struct Topic(String)`, built only through `Topic::new`. -/
structure Topic where
  name : List Char
  valid : TopicName name
  deriving DecidableEq

/-- `struct TopicPrefix(String)`, built only through `TopicPrefix::new`. -/
structure TopicPrefix where
  name : List Char
  valid : PrefixName name
  deriving DecidableEq

/-- `Topic::new`. -/
def Topic.new (s : List Char) : Option Topic :=
  if h : TopicName s then some ⟨s, h⟩ else none

/-- `TopicPrefix::new`. -/
def TopicPrefix.new (s : List Char) : Option TopicPrefix :=
  if h : PrefixName s then some ⟨s, h⟩ else none

/-- `enum TopicFilter`. -/
inductive TopicFilter
  /-- Exact match required -/
  | Exact (t : Topic)
  /-- Must be a prefix of the topic name -/
  | Prefix (p : TopicPrefix)
  deriving DecidableEq

/-- `TopicFilter::try_new`, with the `InvalidTopic` error as `none`. -/
def TopicFilter.tryNew (filter : List Char) (exact : Bool) : Option TopicFilter :=
  if exact then (Topic.new filter).map .Exact else (TopicPrefix.new filter).map .Prefix

/-- The derived `Ord` of the Rust enum: variant first, then the name. -/
def TopicFilter.cmp : TopicFilter → TopicFilter → Ordering
  | .Exact a, .Exact b => compare a.name b.name
  | .Exact _, .Prefix _ => .lt
  | .Prefix _, .Exact _ => .gt
  | .Prefix a, .Prefix b => compare a.name b.name

instance : Ord TopicFilter := ⟨TopicFilter.cmp⟩

/-- `TopicFilter::contains_filter`: does the other filter match a subset of this one? -/
def TopicFilter.containsFilter : TopicFilter → TopicFilter → Bool
  | .Exact a, .Exact b => a.name == b.name
  | .Exact a, .Prefix b => b.name.isPrefixOf a.name
  | .Prefix a, .Exact b => a.name.isPrefixOf b.name
  | .Prefix a, .Prefix b => b.name.isPrefixOf a.name || a.name.isPrefixOf b.name

/-- `TopicFilter::matches`. -/
def TopicFilter.matches : TopicFilter → Topic → Bool
  | .Exact a, t => a.name == t.name
  | .Prefix a, t => a.name.isPrefixOf t.name

/-- Two filters overlap when one topic is matched by both. -/
def TopicFilter.Overlaps (f g : TopicFilter) : Prop :=
  ∃ t : Topic, f.matches t = true ∧ g.matches t = true

theorem Topic.ext_name {a b : Topic} (h : a.name = b.name) : a = b := by
  cases a; cases b; cases h; rfl

@[simp] theorem matches_exact_iff (a t : Topic) : (TopicFilter.Exact a).matches t = true ↔ a = t :=
  ⟨fun h => Topic.ext_name (by simpa [TopicFilter.matches] using h),
    fun h => by simp [TopicFilter.matches, h]⟩

@[simp] theorem matches_prefix_iff (p : TopicPrefix) (t : Topic) :
    (TopicFilter.Prefix p).matches t = true ↔ p.name <+: t.name := by
  simp [TopicFilter.matches]

/-- A prefix that ends in `/` is completed by one more letter, otherwise it is a
topic itself: every valid prefix is the prefix of some valid topic. -/
theorem TopicPrefix.extend (p : TopicPrefix) : ∃ t : Topic, p.name <+: t.name := by
  obtain ⟨s, hne, hhead, hchars⟩ := p
  by_cases hlast : s.getLast? = some '/'
  · have hname : TopicName (s ++ ['a']) := by
      refine ⟨by simp, ?_, by simp, ?_⟩
      · cases s with
        | nil => exact absurd rfl hne
        | cons c cs => simpa using hhead
      · intro c hc
        rcases List.mem_append.mp hc with hc | hc
        · exact hchars c hc
        · simp only [List.mem_singleton] at hc
          subst hc; decide
    exact ⟨⟨s ++ ['a'], hname⟩, List.prefix_append s ['a']⟩
  · exact ⟨⟨s, hne, hhead, hlast, hchars⟩, List.prefix_refl s⟩

/-- Every topic is matched by its own exact filter. -/
theorem TopicFilter.matches_self (t : Topic) : (TopicFilter.Exact t).matches t = true := by
  simp

theorem exact_exact_overlaps (a b : Topic) :
    (TopicFilter.Exact a).Overlaps (.Exact b) ↔ a = b := by
  constructor
  · rintro ⟨t, ha, hb⟩
    rw [matches_exact_iff] at ha hb
    rw [ha, hb]
  · rintro rfl
    exact ⟨a, by simp, by simp⟩

theorem exact_prefix_overlaps (a : Topic) (p : TopicPrefix) :
    (TopicFilter.Exact a).Overlaps (.Prefix p) ↔ p.name <+: a.name := by
  constructor
  · rintro ⟨t, ha, hp⟩
    rw [matches_exact_iff] at ha
    rw [matches_prefix_iff] at hp
    rwa [ha]
  · intro h
    exact ⟨a, by simp, by simpa using h⟩

theorem prefix_prefix_overlaps (p q : TopicPrefix) :
    (TopicFilter.Prefix p).Overlaps (.Prefix q) ↔ q.name <+: p.name ∨ p.name <+: q.name := by
  constructor
  · rintro ⟨t, hp, hq⟩
    rw [matches_prefix_iff] at hp hq
    exact List.prefix_or_prefix_of_prefix hq hp
  · rintro (h | h)
    · -- the shorter prefix matches every topic that the longer one does
      obtain ⟨t, ht⟩ := p.extend
      exact ⟨t, by simpa using ht, by simpa using h.trans ht⟩
    · obtain ⟨t, ht⟩ := q.extend
      exact ⟨t, by simpa using h.trans ht, by simpa using ht⟩

theorem TopicFilter.overlaps_comm {f g : TopicFilter} : f.Overlaps g ↔ g.Overlaps f :=
  ⟨fun ⟨t, hf, hg⟩ => ⟨t, hg, hf⟩, fun ⟨t, hg, hf⟩ => ⟨t, hf, hg⟩⟩

/-- **`contains_filter` is the overlap of `matches` over all valid topics**, in each
of the four `Exact`/`Prefix` combinations. -/
theorem containsFilter_iff_overlap (f g : TopicFilter) :
    f.containsFilter g = true ↔ f.Overlaps g := by
  cases f with
  | Exact a =>
    cases g with
    | Exact b =>
      rw [exact_exact_overlaps]
      simp only [TopicFilter.containsFilter, beq_iff_eq]
      exact ⟨Topic.ext_name, fun h => h ▸ rfl⟩
    | Prefix q =>
      rw [exact_prefix_overlaps]
      simp [TopicFilter.containsFilter]
  | Prefix p =>
    cases g with
    | Exact b =>
      rw [TopicFilter.overlaps_comm, exact_prefix_overlaps]
      simp [TopicFilter.containsFilter]
    | Prefix q =>
      rw [prefix_prefix_overlaps]
      simp [TopicFilter.containsFilter]

/-- `contains_filter` is symmetric, although it is written as an inclusion test. -/
theorem containsFilter_comm (f g : TopicFilter) : f.containsFilter g = g.containsFilter f := by
  rw [Bool.eq_iff_iff, containsFilter_iff_overlap, containsFilter_iff_overlap]
  exact TopicFilter.overlaps_comm

end D7os.Ipc
