import Mathlib.Algebra.Order.BigOperators.Group.List
import Mathlib.Algebra.Order.Group.Nat
import Mathlib.Algebra.Ring.Nat
import RealWorld.Schema.Isolation
import RealWorld.Transactional.Acquisition

/-!
# Calls that take their keys in order

A call takes its slug and then its tags, in the order of its list, and keeps what it has inserted until
it ends. Its steps are those of a party that takes keys, and where nothing else stops it, it takes every
key that is free.
-/

namespace RealWorld.Schema
open Relational Transactional

def Tables.hasKey (c : Tables) : Key → Prop
  | .slug slug => ∃ a ∈ c.articles, a.slug = slug
  | .tag name => ∃ tag ∈ c.tags, tag.name = some name

def Creation.keys (c : Creation) : List Key := .slug c.slug :: c.names.map .tag

/-- The keys a transaction has yet to insert. -/
def Session.ahead (t : Session) : List Key :=
  match t.stage with
  | .begun => t.creation.keys
  | .tagging _ names => names.map .tag
  | _ => []

def Session.behind (t : Session) : List Key :=
  t.creation.keys.take (t.creation.keys.length - t.ahead.length)

def Session.party (t : Session) : Option (Party Key) :=
  if t.isOpen then some ⟨t.behind, t.ahead⟩ else none

/-- The calls as parties that take keys; a call that is not there takes none. -/
def Database.holdings (d : Database) : Holdings Key where
  settled := d.committed.hasKey
  parties i := match d.sessions[i]? with
    | some t => t.party
    | none => some ⟨[], []⟩

section
variable {loc : DbLocale} {s : Store} {d d' : Database} {i j : Nat} {t t' u : Session} {key : Key}

theorem Session.behind_of (front : List Key) (split : t.creation.keys = front ++ t.ahead) : t.behind = front := by
  unfold behind
  rw [split, List.length_append, Nat.add_sub_cancel, List.take_left']
  rfl

theorem Session.next_eq : t.next = t.ahead.head? := by
  unfold next ahead Creation.keys
  cases t.stage with
  | tagging articleId names => cases names <;> rfl
  | _ => rfl

theorem Session.party_begun (begun : t.stage = .begun) : t.party = some ⟨[], t.creation.keys⟩ := by
  have ahead : t.ahead = t.creation.keys := by
    unfold Session.ahead
    rw [begun]
  unfold party isOpen
  rw [begun, behind_of [] (by rw [ahead]; rfl), ahead]
  rfl

theorem Session.party_tagging {articleId : Int} {names behind : List String}
    (tagging : t.stage = .tagging articleId names) (split : t.creation.names = behind ++ names) :
    t.party = some ⟨.slug t.creation.slug :: behind.map .tag, names.map .tag⟩ := by
  have ahead : t.ahead = names.map .tag := by
    unfold Session.ahead
    rw [tagging]
  unfold party isOpen
  rw [tagging, behind_of (.slug t.creation.slug :: behind.map .tag), ahead]
  · rfl
  · rw [ahead]
    unfold Creation.keys
    rw [split, List.map_append]
    rfl

theorem Session.party_at {articleId : Int} {names behind : List String} {p : Pending}
    (split : t.creation.names = behind ++ names) :
    ({ t with stage := .tagging articleId names, pending := p } : Session).party =
      some ⟨.slug t.creation.slug :: behind.map .tag, names.map .tag⟩ :=
  party_tagging (t := { t with stage := .tagging articleId names, pending := p }) rfl split

theorem Session.party_linked {articleId : Int} (linked : t.stage = .linked articleId) :
    t.party = some ⟨t.creation.keys, []⟩ := by
  have ahead : t.ahead = [] := by
    unfold Session.ahead
    rw [linked]
  unfold party isOpen
  rw [linked, behind_of t.creation.keys (by rw [ahead, List.append_nil]), ahead]
  rfl

theorem Session.party_closed (closed : t.isOpen = false) : t.party = none := by
  unfold party
  rw [closed]
  rfl

/-- The rows a transaction has inserted are those of the keys behind it that nobody has committed. -/
theorem Session.Tagged.holds_iff {articleId : Int} {behind : List String} (h : t.Tagged s.toTables articleId behind)
    (valid : Valid loc (s.with t.pending)) : t.pending.holds key = true ↔
      key ∈ Key.slug t.creation.slug :: behind.map Key.tag ∧ ¬ s.hasKey key := by
  cases key with
  | slug slug =>
    have mine : t.pending.holds (.slug slug) = true ↔ t.creation.slug = slug := by
      unfold Pending.holds
      rw [h.article]
      simp [Creation.article]
    have listed : Key.slug slug ∈ Key.slug t.creation.slug :: behind.map Key.tag ↔ t.creation.slug = slug := by
      simp [eq_comm]
    rw [mine, listed]
    refine ⟨fun same => ⟨same, ?_⟩, fun both => both.1⟩
    rintro ⟨a, member, taken⟩
    refine apart_of_nodup_map valid.uniq_slug a member (t.creation.article articleId) ?_ (taken.trans same.symm)
    rw [h.article]
    exact List.mem_singleton_self _
  | tag name =>
    have mine : t.pending.holds (.tag name) = true ↔ ∃ tag ∈ t.pending.tags, tag.name = some name := by
      simp [Pending.holds]
    have listed : Key.tag name ∈ Key.slug t.creation.slug :: behind.map Key.tag ↔ name ∈ behind := by
      simp
    rw [mine, listed]
    constructor
    · rintro ⟨tag, member, named⟩
      obtain ⟨name', done, same⟩ := h.inserted tag member
      obtain rfl := Option.some.inj (named.symm.trans same)
      refine ⟨done, ?_⟩
      rintro ⟨old, stored, taken⟩
      exact apart_of_nodup_map valid.tag_names old stored tag member (taken.trans named.symm)
    · rintro ⟨done, free⟩
      obtain ⟨tag, member, named⟩ := h.visible name done
      rcases List.mem_append.mp member with old | new
      · exact absurd ⟨tag, old, named⟩ free
      · exact ⟨tag, new, named⟩

theorem Session.Sound.holds_iff (h : t.Sound loc s) : t.pending.holds key = true ↔
    ∃ p, t.party = some p ∧ key ∈ p.behind ∧ ¬ s.hasKey key := by
  have nothing : t.pending = {} → (t.pending.holds key = true ↔ False) := by
    intro empty
    rw [empty]
    cases key <;> simp [Pending.holds]
  have progress := h.progress
  cases at_ : t.stage with
  | begun =>
    rw [nothing (progress.begun at_), party_begun at_]
    simp
  | tagging articleId names =>
    obtain ⟨_, behind, split, tagged⟩ := progress.tagging at_
    rw [tagged.holds_iff h.valid, party_tagging at_ split]
    simp
  | linked articleId =>
    obtain ⟨_, tagged, _⟩ := progress.linked at_
    rw [tagged.holds_iff h.valid, party_linked at_]
    simp [Creation.keys]
  | committed articleId =>
    unfold Session.Progress at progress
    rw [at_] at progress
    rw [nothing progress.1, party_closed (by unfold isOpen; rw [at_])]
    simp
  | aborted =>
    unfold Session.Progress at progress
    rw [at_] at progress
    rw [nothing progress, party_closed (by unfold isOpen; rw [at_])]
    simp

theorem Database.Sound.holds_iff (h : d.Sound loc) : d.holdings.Holds i key ↔
    ∃ t, d.sessions[i]? = some t ∧ t.pending.holds key = true := by
  unfold Holdings.Holds Database.holdings
  dsimp only
  cases here : d.sessions[i]? with
  | none => simp
  | some t =>
    have own : t.pending.holds key = true ↔ _ := (h.sessions here).holds_iff
    constructor
    · intro held
      exact ⟨t, rfl, own.mpr held⟩
    · rintro ⟨_, ⟨⟩, held⟩
      exact own.mp held

theorem Session.party_next (next : t.next = some key) :
    t.party = some ⟨t.behind, key :: t.ahead.tail⟩ := by
  rw [next_eq] at next
  have isOpen : t.isOpen = true := by
    unfold Session.ahead at next
    unfold Session.isOpen
    split at next <;> simp_all
  unfold party
  rw [if_pos isOpen, ← List.eq_cons_of_mem_head? next]

theorem Database.session_of_ahead {behind rest : List Key}
    (here : d.holdings.parties i = some ⟨behind, key :: rest⟩) :
    ∃ t, d.sessions[i]? = some t ∧ t.next = some key := by
  unfold holdings at here
  dsimp only at here
  split at here
  · rename_i t found
    unfold Session.party at here
    split at here
    · have ahead : t.ahead = key :: rest := congrArg Party.ahead (Option.some.inj here)
      refine ⟨t, found, ?_⟩
      rw [Session.next_eq, ahead]
      rfl
    · cases here
  · cases here

theorem Database.Sound.waitsFor_iff (h : d.Sound loc) : d.waitsFor i j = true ↔ d.holdings.WaitsFor i j := by
  unfold waitsFor Holdings.WaitsFor
  rw [Bool.and_eq_true, decide_eq_true_eq]
  refine and_congr_right fun _ => ?_
  constructor
  · intro held
    split at held
    · rename_i key u wanted other
      obtain ⟨t, here, next⟩ := Option.bind_eq_some_iff.mp wanted
      refine ⟨t.behind, key, t.ahead.tail, ?_, h.holds_iff.mpr ⟨u, other, held⟩⟩
      unfold holdings
      dsimp only
      rw [here]
      exact t.party_next next
    · cases held
  · rintro ⟨behind, key, rest, here, held⟩
    obtain ⟨u, other, inserted⟩ := h.holds_iff.mp held
    obtain ⟨t, found, next⟩ := session_of_ahead here
    rw [found, Option.bind_some, next, other]
    exact inserted

theorem Database.holdings_put (here : d.sessions[i]? = some t) {q : Sequences} :
    (d.put i q t').holdings = d.holdings.set i t'.party := by
  unfold holdings Holdings.set put
  congr 1
  funext j
  by_cases same : j = i
  · subst same
    rw [Function.update_self, (sessions_set here).mpr (.inl ⟨rfl, rfl⟩)]
  · rw [Function.update_of_ne same, List.getElem?_set_ne (Ne.symm same)]

theorem Database.holdings_here (here : d.sessions[i]? = some t) : d.holdings.parties i = t.party := by
  unfold holdings
  dsimp only
  rw [here]

theorem Tables.hasKey_with {c : Tables} {p : Pending} : (c.with p).hasKey key ↔ c.hasKey key ∨ p.holds key = true := by
  cases key <;> simp [hasKey, Tables.with, Pending.holds, or_and_right, exists_or]

/-- The key of the next row is held by nobody else. -/
theorem Database.Sound.free (h : d.Sound loc) (free : d.blocked i = false) (here : d.sessions[i]? = some t)
    (next : t.next = some key) : ∀ j, j ≠ i → ¬ d.holdings.Holds j key := by
  intro j other held
  obtain ⟨u, found, inserted⟩ := h.holds_iff.mp held
  rw [free_of_blocked free here next other found] at inserted
  cases inserted

theorem Database.Sound.takes_slug (h : d.Sound loc) (here : d.sessions[i]? = some t) (free : d.blocked i = false)
    (begun : t.stage = .begun) {articleId : Int} {q : Sequences} {p : Pending} :
    d.holdings.Take i (d.put i q { t with stage := .tagging articleId t.creation.names, pending := p }).holdings := by
  have next : t.next = some (.slug t.creation.slug) := by
    unfold Session.next
    rw [begun]
  have before : d.holdings.parties i = some ⟨[], .slug t.creation.slug :: t.creation.names.map .tag⟩ := by
    rw [holdings_here here, Session.party_begun begun]
    rfl
  rw [holdings_put here, Session.party_at (List.nil_append _).symm]
  exact .next before (h.free free here next)

/-- Whether a row goes in or the tag is there already, its key is taken. -/
theorem Database.Sound.takes_tag (h : d.Sound loc) (here : d.sessions[i]? = some t) (free : d.blocked i = false)
    {articleId : Int} {name : String} {names : List String} (tagging : t.stage = .tagging articleId (name :: names))
    {q : Sequences} {p : Pending} :
    d.holdings.Take i (d.put i q { t with stage := .tagging articleId names, pending := p }).holdings := by
  obtain ⟨_, behind, split, _⟩ := (h.sessions here).progress.tagging tagging
  have next : t.next = some (.tag name) := by
    unfold Session.next
    rw [tagging]
  have before : d.holdings.parties i =
      some ⟨.slug t.creation.slug :: behind.map .tag, .tag name :: names.map .tag⟩ := by
    rw [holdings_here here, Session.party_tagging tagging split]
    rfl
  have split' : t.creation.names = (behind ++ [name]) ++ names := by simpa using split
  rw [holdings_put here, Session.party_at split', List.map_append, ← List.cons_append]
  exact .next before (h.free free here next)

/-- The steps of concurrent calls are those of parties that take keys. -/
theorem Database.Moved.reach (h : d.Sound loc) (here : d.sessions[i]? = some t) (moved : d.Moved i t d') :
    d.holdings.Reach d'.holdings := by
  cases moved with
  | article free begun stored => exact .single (.take (h.takes_slug here free begun))
  | tag free tagging room fresh => exact .single (.take (h.takes_tag here free tagging))
  | skip free tagging room clash => exact .single (.take (h.takes_tag here free tagging))
  | link tagged done =>
    obtain ⟨_, behind, split, _⟩ := (h.sessions here).progress.tagging tagged
    have same : d.holdings.parties i = some ⟨t.creation.keys, []⟩ := by
      rw [List.append_nil] at split
      rw [holdings_here here, Session.party_tagging tagged (split.trans (List.append_nil _).symm), ← split]
      rfl
    rw [holdings_put here, Session.party_linked rfl, ← same]
    unfold Holdings.set
    rw [Function.update_eq_self]
  | @commit articleId linked =>
    obtain ⟨_, tagged, _⟩ := (h.sessions here).progress.linked linked
    have before : d.holdings.parties i = some ⟨t.creation.keys, []⟩ := by
      rw [holdings_here here, Session.party_linked linked]
    have settled : (d.committed.with t.pending).hasKey =
        fun k => d.committed.hasKey k ∨ k ∈ t.creation.keys := by
      funext k
      refine propext (Tables.hasKey_with.trans ?_)
      rw [tagged.holds_iff (h.sessions here).valid, show .slug t.creation.slug :: t.creation.names.map .tag =
        t.creation.keys from rfl]
      tauto
    have put : (d.put i d.committed.toSequences (t.committed articleId)).holdings = d.holdings.set i none :=
      holdings_put here
    have after : Database.holdings
        { committed := d.committed.with t.pending, sessions := d.sessions.set i (t.committed articleId) } =
        { d.holdings.set i none with settled := (d.committed.with t.pending).hasKey } :=
      congrArg (fun s : Holdings Key => { s with settled := (d.committed.with t.pending).hasKey }) put
    rw [after, settled]
    exact .single (.finish before)
  | fail isOpen drawn =>
    rw [holdings_put here]
    exact .single (.fail _ i)

theorem Database.Reach.holdings {creations : List Creation} (valid : Valid loc s)
    (run : (Database.start s creations).Reach d) : (Database.start s creations).holdings.Reach d.holdings := by
  induction run with
  | refl => exact .refl
  | tail earlier last ih =>
    obtain ⟨i, t, here, moved⟩ := last.moved
    exact ih.trans (moved.reach (Reach.sound valid earlier) here)

end

/-! ### Calls that nothing but a wait can stop -/

/-- No check on the rows of a call fails. -/
structure Creation.Fits (t : Tables) (c : Creation) : Prop where
  title : c.title.length ≤ 255
  slug : c.slug.length ≤ 255
  names : ∀ name ∈ c.names, name.length ≤ 255
  author : ∃ u ∈ t.users, u.userId = c.authorId
  free : ∀ a ∈ t.articles, a.slug ≠ c.slug

/-- The ids a transaction has yet to draw. -/
def Session.draws (t : Session) : Serial → Nat
  | .articles => if t.stage matches .begun then 1 else 0
  | .tags => match t.stage with
    | .begun => t.creation.names.length
    | .tagging _ names => names.length
    | _ => 0
  | _ => 0

structure Database.Ready (d : Database) : Prop where
  fits : ∀ t ∈ d.sessions, t.creation.Fits d.committed.toTables
  room : ∀ serial, d.committed.last serial + (d.sessions.map (·.draws serial)).sum ≤ maxInt

section
variable {loc : DbLocale} {s : Store} {d d' : Database} {i : Nat} {t : Session} {key : Key}

theorem sum_map_set {α : Type} {f : α → Nat} {l : List α} {a : α} (here : l[i]? = some a) (b : α) :
    ((l.set i b).map f).sum + f a = (l.map f).sum + f b := by
  induction l generalizing i with
  | nil => cases here
  | cons c l ih =>
    cases i with
    | zero =>
      cases here
      simp only [List.set_cons_zero, List.map_cons, List.sum_cons]
      omega
    | succ i =>
      have rest := ih (i := i) (by simpa using here)
      simp only [List.set_cons_succ, List.map_cons, List.sum_cons]
      omega

theorem Database.Ready.room_of (h : d.Ready) (here : d.sessions[i]? = some t) (serial : Serial) :
    d.committed.last serial + t.draws serial ≤ maxInt := by
  have all := h.room serial
  have one : t.draws serial ≤ (d.sessions.map (·.draws serial)).sum :=
    List.le_sum_of_mem (List.mem_map_of_mem (List.mem_of_getElem? here))
  omega

theorem Database.Ready.put (h : d.Ready) (here : d.sessions[i]? = some t) {q : Sequences} {t' : Session}
    (same : t'.creation = t.creation)
    (drawn : ∀ serial, q.last serial + t'.draws serial ≤ d.committed.last serial + t.draws serial) :
    (d.put i q t').Ready where
  fits u member := by
    rcases List.mem_or_eq_of_mem_set member with old | rfl
    · exact h.fits u old
    · rw [same]
      exact h.fits t (List.mem_of_getElem? here)
  room serial := by
    have all := h.room serial
    have moved := sum_map_set (f := fun t : Session => t.draws serial) here t'
    have less := drawn serial
    show q.last serial + ((d.sessions.set i t').map fun t => t.draws serial).sum ≤ maxInt
    omega

/-- A statement that fails nowhere brings a transaction that need not wait to its next stage. -/
theorem Database.advance_ok (free : d.blocked i = false) (here : d.sessions[i]? = some t)
    {statement : Txn Stage} (next : t.statement = some statement) {stage : Stage} {view : Store}
    (ok : statement (d.committed.with t.pending) = .ok stage view) :
    d.advance i = some (d.put i view.toSequences { t with stage := stage, pending := .of d.committed view }) := by
  unfold advance
  rw [free, here]
  simp only [next, ok]
  rfl

theorem Database.Ready.article (h : d.Ready) (sound : d.Sound loc) (here : d.sessions[i]? = some t)
    (free : d.blocked i = false) (begun : t.stage = .begun) :
    ∃ d', d.advance i = some d' ∧ d'.Ready ∧ d.holdings.Take i d'.holdings := by
  have empty := (sound.sessions here).progress.begun begun
  have fits := h.fits t (List.mem_of_getElem? here)
  have room : d.committed.articlesSeq + (t.draws .articles : Nat) ≤ maxInt := h.room_of here .articles
  have one : t.draws .articles = 1 := by simp [Session.draws, begun]
  have fresh : ∀ a ∈ d.committed.articles, a.articleId ≠ d.committed.articlesSeq + 1 := by
    intro a member
    have bounded := (sound.valid.serial_articles a member).2
    omega
  obtain ⟨view, stored⟩ : ∃ view, insertArticles t.creation.moment t.creation.title t.creation.slug
      t.creation.description t.creation.body t.creation.authorId (d.committed.with t.pending) =
      .ok (d.committed.articlesSeq + 1) view := by
    rw [empty, Store.with_empty]
    exact ⟨_, insertArticles_ok.mpr ⟨by omega, fits.title, fits.slug, nodup_map_concat sound.valid.pk_articles fresh,
      nodup_map_concat sound.valid.uniq_slug fits.free, fits.author, rfl, rfl⟩⟩
  have drawn : view.toSequences = d.committed.toSequences.advance .articles := by
    rw [(insertArticles_with stored).2]
    rfl
  have done := advance_ok free here (Session.statement_begun begun)
    (bind_ok.mpr ⟨_, view, stored, pure_ok.mpr ⟨rfl, rfl⟩⟩)
  refine ⟨_, done, h.put here rfl ?_, sound.takes_slug here free begun⟩
  rw [drawn]
  intro serial
  cases serial <;> simp [Session.draws, Sequences.last, Sequences.advance, begun]

theorem Database.Ready.tag (h : d.Ready) (sound : d.Sound loc) (here : d.sessions[i]? = some t)
    (free : d.blocked i = false) {articleId : Int} {name : String} {names : List String}
    (tagging : t.stage = .tagging articleId (name :: names)) :
    ∃ d', d.advance i = some d' ∧ d'.Ready ∧ d.holdings.Take i d'.holdings := by
  obtain ⟨_, behind, split, _⟩ := (sound.sessions here).progress.tagging tagging
  have fits := h.fits t (List.mem_of_getElem? here)
  have room : d.committed.tagsSeq + (t.draws .tags : Nat) ≤ maxInt := h.room_of here .tags
  have some_ : t.draws .tags = names.length + 1 := by simp [Session.draws, tagging]
  have short : name.length ≤ 255 := fits.names name (by simp [split])
  have below : (d.committed.with t.pending).tagsSeq < maxInt := by
    show d.committed.tagsSeq < maxInt
    omega
  have stored : insertTags [name] (d.committed.with t.pending) =
      .ok () ((d.committed.with t.pending).insertTag name) := insertTags_cons_ok.mpr ⟨below, short, rfl⟩
  have done := advance_ok free here (Session.statement_tagging tagging)
    (bind_ok.mpr ⟨_, _, stored, pure_ok.mpr ⟨rfl, rfl⟩⟩)
  refine ⟨_, done, h.put here rfl ?_, sound.takes_tag here free tagging⟩
  rw [insertTag_with]
  intro serial
  cases serial <;> simp [Session.draws, Sequences.last, Sequences.advance, tagging, Store.with, Store.drawn]
  omega

/-- Whatever two parties could take, the calls they stand for can take. -/
theorem Database.Ready.take (h : d.Ready) (sound : d.Sound loc) {s' : Holdings Key}
    (taken : d.holdings.Take i s') : ∃ d', d.Step d' ∧ d'.Ready ∧ d'.holdings = s' := by
  obtain ⟨here, unheld⟩ := taken
  obtain ⟨t, found, next⟩ := session_of_ahead here
  have free : d.blocked i = false := by
    unfold blocked
    rw [List.any_eq_false]
    intro j _ waiting
    obtain ⟨different, behind, key, rest, here', held⟩ := sound.waitsFor_iff.mp waiting
    rw [here] at here'
    cases here'
    exact unheld j (Ne.symm different) held
  obtain ⟨d', done, ready, taken⟩ : ∃ d', d.advance i = some d' ∧ d'.Ready ∧ d.holdings.Take i d'.holdings := by
    unfold Session.next at next
    split at next
    · exact h.article sound found free ‹_›
    · exact h.tag sound found free ‹_›
    · cases next
  exact ⟨d', ⟨.advance i, done⟩, ready, taken.unique (.next here unheld)⟩

theorem Database.Ready.takes (h : d.Ready) (sound : d.Sound loc) {j : Nat} {s' : Holdings Key}
    (run : Holdings.Takes i j d.holdings s') :
    ∃ d', d.Reach d' ∧ d'.Ready ∧ d'.Sound loc ∧ d'.holdings = s' := by
  induction run with
  | refl => exact ⟨d, .refl, h, sound, rfl⟩
  | tail _ last ih =>
    obtain ⟨d', run, ready, sound', rfl⟩ := ih
    have next : ∃ d'', d'.Step d'' ∧ d''.Ready ∧ d''.holdings = _ := last.elim (ready.take sound') (ready.take sound')
    obtain ⟨d'', step, ready', same⟩ := next
    exact ⟨d'', run.tail step, ready', sound'.step step, same⟩

end

end RealWorld.Schema
