import Mathlib.Data.List.Induction
import Drv.Net.DnsCache

/-!
# What the DNS cache hands out

Beside a cache stands the log of the answers that the forwarder accepted
from its upstreams. Every entry is one of them, under the bytes of its
request; a hit is made of it as a fresh answer would be, with the TTLs aged
by the whole seconds since. The counts of a cache are exact, so that no
eviction ever finds it empty.

That an upstream told the truth is not shown, nor that a hit is found
while its entry is fresh: an entry may be evicted.
-/

namespace Drv.Net.DnsCache

open List Cache Entry

/-- An upstream's answer that was accepted. -/
structure Answer where
  request : Message
  response : Message
  httpAge : UInt32
  time : Nat

/-- The message that is kept of an answer. -/
def Answer.message (a : Answer) : Message := reply a.request a.response

/-- Request and response were parsed. -/
structure Answer.Parsed (codec : Codec) (a : Answer) : Prop where
  request : Formed codec.fromVec a.request
  response : Formed codec.fromVec a.response

/-- The entry was made of the answer. -/
structure Keeps (codec : Codec) (a : Answer) (e : Entry) : Prop where
  parsed : a.Parsed codec
  key : upstreamBytes codec a.request = some e.key
  wire : codec.toVec a.message = some e.wire
  inserted : e.inserted = a.time
  fit : unfit a.message = false
  lifetime : ∃ ttl, timeToLive a.message a.httpAge = some ttl ∧ e.lifetime = ttl.toNat * second

theorem Keeps.parses {codec : Codec} {a : Answer} {e : Entry} (h : Keeps codec a e) :
    codec.fromVec e.wire = some a.message :=
  -- a reply differs from the response only in what the service sets
  codec.faithful _ _ h.parsed.response h.wire

theorem upstreamBytes_parses {codec : Codec} {request : Message} {b : Bytes}
    (hformed : Formed codec.fromVec request) (h : upstreamBytes codec request = some b) :
    codec.fromVec b = some { request with id := 0 } :=
  codec.faithful _ _ hformed (Option.filter_eq_some_iff.mp h).1

namespace Cache

structure Sound (codec : Codec) (log : List Answer) (c : Cache) : Prop where
  distinct : (c.entries.map key).Nodup
  count : c.entries.length ≤ entriesLimit
  exact : c.bytes = (c.entries.map size).sum
  room : c.bytes ≤ bytesLimit
  kept : ∀ e ∈ c.entries, ∃ a ∈ log, Keeps codec a e

variable {codec : Codec} {log : List Answer} {c : Cache}

theorem new_sound : new.Sound codec [] :=
  ⟨nodup_nil, Nat.zero_le _, rfl, Nat.zero_le _, fun _ he => absurd he not_mem_nil⟩

theorem Sound.grow (h : c.Sound codec log) (more : List Answer) : c.Sound codec (log ++ more) :=
  { h with
    kept := fun e he => by
      obtain ⟨a, ha, hkeeps⟩ := h.kept e he
      exact ⟨a, mem_append_left _ ha, hkeeps⟩ }

variable {key : Bytes} {e : Entry}

theorem position_some {i : Nat} (h : c.position key = some (i, e)) :
    c.entries[i]? = some e ∧ e.key = key := by
  obtain ⟨j, hf, h⟩ := Option.bind_eq_some_iff.mp h
  obtain ⟨e', hget, h⟩ := Option.bind_eq_some_iff.mp h
  cases h
  obtain ⟨hlt, hkey, -⟩ := findIdx?_eq_some_iff_getElem.mp hf
  have he := (List.getElem?_eq_some_iff.mp hget).2
  exact ⟨hget, by simpa [he] using hkey⟩

theorem position_none (h : c.position key = none) : key ∉ c.entries.map Entry.key := by
  have hf : c.entries.findIdx? (fun e => e.key = key) = none := by
    cases hf : c.entries.findIdx? (fun e => e.key = key) with
    | none => rfl
    | some i =>
      have hlt := (findIdx?_eq_some_iff_getElem.mp hf).1
      simp [position, hf, getElem?_eq_getElem hlt] at h
  simpa [findIdx?_eq_none_iff] using hf

theorem Sound.remove (h : c.Sound codec log) {i : Nat} (he : c.entries[i]? = some e) :
    (c.remove i e).Sound codec log ∧ e.key ∉ (c.remove i e).entries.map Entry.key ∧
      (c.remove i e).bytes + e.size = c.bytes ∧
      (c.remove i e).entries.length + 1 = c.entries.length := by
  obtain ⟨hlt, rfl⟩ := List.getElem?_eq_some_iff.mp he
  have hp := getElem_cons_eraseIdx_perm hlt
  have hks := (hp.map key).nodup_iff.mpr h.distinct
  have hsum := (hp.map size).sum_eq
  have hlen := hp.length_eq
  simp only [map_cons, sum_cons, length_cons, nodup_cons] at hks hsum hlen
  have hbs := h.exact
  have hroom := h.room
  have hcnt := h.count
  refine ⟨⟨hks.2, ?_, ?_, ?_, fun e he => h.kept e (mem_of_mem_eraseIdx he)⟩, hks.1, ?_, hlen⟩
  · show (c.entries.eraseIdx i).length ≤ entriesLimit
    omega
  · show c.bytes - c.entries[i].size = ((c.entries.eraseIdx i).map size).sum
    omega
  · show c.bytes - c.entries[i].size ≤ bytesLimit
    omega
  · show c.bytes - c.entries[i].size + c.entries[i].size = c.bytes
    omega

theorem Sound.pushBack (h : c.Sound codec log) (hkey : e.key ∉ c.entries.map Entry.key)
    (hcnt : c.entries.length < entriesLimit) (hroom : c.bytes + e.size ≤ bytesLimit)
    (hk : ∃ a ∈ log, Keeps codec a e) : (c.pushBack e).Sound codec log := by
  refine ⟨?_, ?_, ?_, hroom, forall_mem_append.mpr ⟨h.kept, forall_mem_singleton.mpr hk⟩⟩
  · simpa only [Cache.pushBack, map_append, map_singleton, concat_eq_append] using
      h.distinct.concat hkey
  · rw [Cache.pushBack, length_append]
    exact hcnt
  · simp [Cache.pushBack, h.exact]

theorem Sound.vacate (h : c.Sound codec log) (key : Bytes) :
    (c.vacate key).Sound codec log ∧ key ∉ (c.vacate key).entries.map Entry.key := by
  unfold Cache.vacate
  cases hpos : c.position key with
  | none => exact ⟨h, position_none hpos⟩
  | some =>
    obtain ⟨hget, rfl⟩ := position_some hpos
    obtain ⟨hsound, hkey, -⟩ := h.remove hget
    exact ⟨hsound, hkey⟩

/-- Eviction ends with room for the entry; an empty cache has it. -/
theorem Sound.evict {entries : List Entry} {bytes size : Nat}
    (h : (⟨entries, bytes⟩ : Cache).Sound codec log) (hsz : size ≤ bytesLimit) :
    ∃ c, evict size entries bytes = some c ∧ c.Sound codec log ∧
      c.entries.length < entriesLimit ∧ c.bytes + size ≤ bytesLimit ∧ c.entries <:+ entries := by
  induction entries generalizing bytes with
  | nil =>
    have hz : bytes = 0 := h.exact
    have henough : ¬ (([] : List Entry).length ≥ entriesLimit ∨ bytes + size > bytesLimit) := by
      simp only [length_nil, entriesLimit]
      omega
    refine ⟨⟨[], bytes⟩, ?_, h, Nat.zero_lt_succ _, by simp only; omega, suffix_refl _⟩
    unfold Cache.evict
    rw [if_neg henough]
  | cons old rest ih =>
    unfold Cache.evict
    split
    · obtain ⟨hsound, -, -, -⟩ := h.remove (i := 0) rfl
      obtain ⟨c, hevict, hc, hcnt, hroom, hsuf⟩ := ih hsound
      exact ⟨c, hevict, hc, hcnt, hroom, hsuf.trans (suffix_cons ..)⟩
    · refine ⟨_, rfl, h, ?_, ?_, suffix_refl _⟩ <;> simp only <;> omega

theorem Sound.insert (h : c.Sound codec log) {a : Answer}
    (hkey : upstreamBytes codec a.request = some key) :
    ∃ c', c.insert codec key a.message a.httpAge a.time = some c' ∧
      (a.Parsed codec → c'.Sound codec (log ++ [a])) := by
  have hgrown : a.Parsed codec → c.Sound codec (log ++ [a]) := fun _ => h.grow [a]
  unfold Cache.insert
  by_cases hfit : unfit a.message = true
  · exact ⟨c, by rw [if_pos hfit], hgrown⟩
  rw [if_neg hfit]
  cases httl : timeToLive a.message a.httpAge with
  | none => exact ⟨c, rfl, hgrown⟩
  | some ttl =>
    by_cases hz : ttl = 0
    · exact ⟨c, by simp only [if_pos hz], hgrown⟩
    cases hwire : codec.toVec a.message with
    | none => exact ⟨c, by simp only [if_neg hz], hgrown⟩
    | some wire =>
      let e : Entry := ⟨key, wire, a.time, ttl.toNat * second⟩
      by_cases hsz : e.size > bytesLimit
      · exact ⟨c, by simp only [if_neg hz]; exact if_pos hsz, hgrown⟩
      obtain ⟨hvac, hfree⟩ := h.vacate key
      obtain ⟨c', hevict, hc', hcnt, hroom, hsuf⟩ := hvac.evict (Nat.not_lt.mp hsz)
      have hkeeps : a.Parsed codec → Keeps codec a e := fun hparsed =>
        ⟨hparsed, hkey, hwire, rfl, Bool.eq_false_iff.mpr hfit, ttl, httl, rfl⟩
      have hnew : e.key ∉ c'.entries.map Entry.key := fun hmem =>
        hfree ((hsuf.sublist.map Entry.key).subset hmem)
      refine ⟨c'.pushBack e, ?_, fun hparsed =>
        (hc'.grow [a]).pushBack hnew hcnt hroom ⟨a, by simp, hkeeps hparsed⟩⟩
      simp only [if_neg hz]
      rw [if_neg hsz]
      exact congrArg (Option.map (·.pushBack e)) hevict

/-- A hit is an entry that is still alive, parsed and aged. -/
theorem Sound.get (h : c.Sound codec log) (key : Bytes) (now : Nat) :
    (c.get codec key now).2.Sound codec log ∧
      ∀ m, (c.get codec key now).1 = some m → ∃ a ∈ log, ∃ e, Keeps codec a e ∧ e.key = key ∧
        now - a.time < e.lifetime ∧ m = age a.message (asSecs (now - a.time)) := by
  unfold Cache.get
  cases hpos : c.position key with
  | none => exact ⟨h, by simp⟩
  | some found =>
    obtain ⟨i, e⟩ := found
    obtain ⟨hget, rfl⟩ := position_some hpos
    obtain ⟨hsound, hkey, hbs, hlen⟩ := h.remove hget
    obtain ⟨a, ha, hkeeps⟩ := h.kept e (mem_of_getElem? hget)
    have hroom := h.room
    have hcnt := h.count
    by_cases hdead : now - e.inserted ≥ e.lifetime
    · simp only [if_pos hdead]
      exact ⟨hsound, by simp⟩
    · simp only [if_neg hdead, hkeeps.parses]
      refine ⟨hsound.pushBack hkey (by omega) (by omega) ⟨a, ha, hkeeps⟩, fun m hm => ?_⟩
      rw [hkeeps.inserted] at hdead hm
      exact ⟨a, ha, e, hkeeps, rfl, Nat.not_le.mp hdead, (Option.some.inj hm).symm⟩

end Cache

/-! ## Ageing -/

theorem toNat_saturatingSub (a b : UInt32) : (saturatingSub a b).toNat = a.toNat - b.toNat := by
  unfold saturatingSub
  split
  next h => exact UInt32.toNat_sub_of_le _ _ h
  next h =>
    have hlt : a.toNat < b.toNat := UInt32.lt_iff_toNat_lt.mp (UInt32.not_le.mp h)
    show 0 = _
    omega

theorem age_records (m : Message) (seconds : UInt32) :
    (age m seconds).records = m.records.map (Record.age seconds) := by
  simp [age, Message.records]

/-- A message is kept for no longer than any of its records. -/
theorem timeToLive_le {m : Message} {httpAge ttl : UInt32} (h : timeToLive m httpAge = some ttl) :
    (∀ rr ∈ m.records, ttl.toNat ≤ rr.ttl.toNat) ∧
      (negative m → ∃ rr ∈ m.authorities, ∃ minimum rest, rr.data = .soa minimum rest ∧
        ttl.toNat ≤ minimum.toNat - httpAge.toNat) := by
  have hsmall : ∀ rr ∈ m.records, (smallestTtl m).toNat ≤ rr.ttl.toNat := by
    intro rr hrr
    unfold smallestTtl
    cases hmin : (m.records.map Record.ttl).min? with
    | none => exact Nat.zero_le _
    | some =>
      exact UInt32.le_iff_toNat_le.mp ((min?_eq_some_iff.mp hmin).2 rr.ttl (mem_map_of_mem hrr))
  unfold timeToLive at h
  split at h
  next hnega =>
    obtain ⟨soa, hsoa, rfl⟩ := Option.map_eq_some_iff.mp h
    obtain ⟨rr, hrr, hdata⟩ := exists_of_findSome?_eq_some hsoa
    rw [UInt32.toNat_min]
    refine ⟨fun rr hrr => Nat.min_le_left .. |>.trans (hsmall rr hrr), fun _ => ⟨rr, hrr, ?_⟩⟩
    split at hdata
    next minimum rest hsoaData =>
      cases hdata
      refine ⟨minimum, rest, hsoaData, ?_⟩
      rw [UInt32.toNat_min, toNat_saturatingSub]
      omega
    · cases hdata
  next hposi =>
    cases h
    exact ⟨hsmall, fun hnega => absurd hnega hposi⟩

theorem toNat_asSecs {elapsed : Nat} {ttl : UInt32} (h : elapsed < ttl.toNat * second) :
    (asSecs elapsed).toNat = elapsed / second ∧ elapsed / second < ttl.toNat := by
  have hlt : elapsed / second < ttl.toNat := Nat.div_lt_of_lt_mul (by rwa [Nat.mul_comm])
  have hbound := ttl.toNat_lt
  refine ⟨?_, hlt⟩
  unfold asSecs
  rw [Nat.min_eq_left (by omega), UInt32.toNat_ofNat', Nat.mod_eq_of_lt (by omega)]

/-! ## The forwarder -/

structure DnsWorld where
  cache : Cache
  log : List Answer

/-- Calls of any number of exchanges, each with the clock it read. -/
inductive DnsOp (codec : Codec) where
  | lookup (request : Message) (now : Nat)
  | answered (a : Answer) (parsed : a.Parsed codec)

namespace DnsWorld

def new : DnsWorld := ⟨Cache.new, []⟩

def step (codec : Codec) (w : DnsWorld) : DnsOp codec → DnsWorld
  | .lookup request now => { w with cache := (lookup codec w.cache request now).2 }
  | .answered a _ =>
    match answered codec w.cache a.request a.response a.httpAge a.time with
    | some (some _, cache) => ⟨cache, w.log ++ [a]⟩
    | some (none, cache) => { w with cache }
    | none => w

def run (codec : Codec) (ops : List (DnsOp codec)) : DnsWorld := ops.foldl (step codec) new

end DnsWorld

variable {codec : Codec} {log : List Answer} {c : Cache}

theorem lookup_spec (h : c.Sound codec log) (request : Message) (now : Nat) :
    (lookup codec c request now).2.Sound codec log ∧
      ∀ hit, Formed codec.fromVec request → (lookup codec c request now).1 = some hit →
        ∃ a ∈ log, ∃ e, Keeps codec a e ∧ now - a.time < e.lifetime ∧
        { a.request with id := request.id } = request ∧
        hit = age (reply request a.response) (asSecs (now - a.time)) := by
  unfold lookup
  split
  next bytes hrefusal hbs =>
    obtain ⟨hsound, hget⟩ := h.get bytes now
    split
    · refine ⟨hsound, fun hit hformed hhit => ?_⟩
      obtain ⟨m, hm, rfl⟩ := Option.map_eq_some_iff.mp hhit
      obtain ⟨a, ha, e, hkeeps, rfl, hlive, rfl⟩ := hget m hm
      -- requests with the same bytes are the same but for the id
      have hparse := upstreamBytes_parses hformed hbs
      have hparse' := upstreamBytes_parses hkeeps.parsed.request hkeeps.key
      have hsame : { a.request with id := request.id } = request :=
        congrArg (fun m : Message => { m with id := request.id })
          (Option.some.inj (hparse'.symm.trans hparse))
      refine ⟨a, ha, e, hkeeps, hlive, hsame, ?_⟩
      conv_rhs => rw [← hsame]
      rfl
    · exact ⟨h, by simp⟩
  · exact ⟨h, by simp⟩

/-- An answer is kept as the log says, and nothing panics. -/
theorem answered_spec (h : c.Sound codec log) (a : Answer) :
    ∃ r c', answered codec c a.request a.response a.httpAge a.time = some (r, c') ∧
      (a.Parsed codec → c'.Sound codec (if r.isSome then log ++ [a] else log)) := by
  unfold answered
  split
  next bytes hrefusal hbs =>
    split
    · exact ⟨none, c, rfl, fun _ => h⟩
    · split
      · obtain ⟨c', hinsert, hc'⟩ := h.insert hbs
        exact ⟨some a.message, c', congrArg (Option.map _) hinsert, hc'⟩
      · exact ⟨some a.message, c, rfl, fun _ => h.grow [a]⟩
  · exact ⟨none, c, rfl, fun _ => h⟩

theorem DnsWorld.run_sound (codec : Codec) (ops : List (DnsOp codec)) :
    (run codec ops).cache.Sound codec (run codec ops).log := by
  induction ops using List.reverseRecOn with
  | nil => exact new_sound
  | append_singleton ops op ih =>
    unfold run at ih ⊢
    rw [foldl_append]
    cases op with
    | lookup request now => exact (lookup_spec ih request now).1
    | answered a hparsed =>
      obtain ⟨r, c', hans, hc'⟩ := answered_spec ih a
      simp only [foldl_cons, foldl_nil, step, hans]
      cases r <;> exact hc' hparsed

/-- At every moment of every run, under any clock: a hit is the reply to
this request of an answer that an upstream gave to the same request, aged
by the whole seconds since; it is younger than each of its records and, if
negative, than its SOA record allows, so that no TTL handed out is zero.
What is kept is neither truncated, failed nor signed, under distinct keys,
and the counts are exact and within their limits. -/
theorem dns_cache_sound (codec : Codec) (ops : List (DnsOp codec)) :
    let w := DnsWorld.run codec ops
    (∀ request now hit, Formed codec.fromVec request →
      (lookup codec w.cache request now).1 = some hit →
      ∃ a ∈ w.log, { a.request with id := request.id } = request ∧
        hit = age (reply request a.response) (asSecs (now - a.time)) ∧
        hit.records.map (·.ttl.toNat) =
          a.response.records.map (fun rr => rr.ttl.toNat - (now - a.time) / second) ∧
        (∀ rr ∈ a.response.records, now - a.time < rr.ttl.toNat * second) ∧
        (Cache.negative a.response → ∃ rr ∈ a.response.authorities, ∃ minimum rest,
          rr.data = .soa minimum rest ∧ now - a.time < (minimum.toNat - a.httpAge.toNat) * second) ∧
        ∀ rr ∈ hit.records, 1 ≤ rr.ttl.toNat) ∧
    (∀ e ∈ w.cache.entries, ∃ m, codec.fromVec e.wire = some m ∧ m.truncation = false ∧
      m.signature = none ∧ (m.responseCode = .noError ∨ m.responseCode = .nxDomain)) ∧
    (w.cache.entries.map key).Nodup ∧ w.cache.entries.length ≤ 256 ∧
    w.cache.bytes = (w.cache.entries.map size).sum ∧ w.cache.bytes ≤ 4 * 1024 * 1024 ∧
    ∀ request response httpAge now, answered codec w.cache request response httpAge now ≠ none := by
  intro w
  have hsound := DnsWorld.run_sound codec ops
  refine ⟨fun request now hit hformed hhit => ?_, fun e he => ?_, hsound.distinct, hsound.count,
    hsound.exact, hsound.room, fun request response httpAge now => ?_⟩
  · obtain ⟨a, ha, e, hkeeps, hlive, hsame, rfl⟩ :=
      (lookup_spec hsound request now).2 hit hformed hhit
    obtain ⟨ttl, httl, hlifet⟩ := hkeeps.lifetime
    rw [hlifet] at hlive
    obtain ⟨hrecords, hnega⟩ := timeToLive_le httl
    obtain ⟨hsecs, hlt⟩ := toNat_asSecs hlive
    have hrecords' : ∀ rr ∈ a.response.records, ttl.toNat ≤ rr.ttl.toNat := hrecords
    refine ⟨a, ha, hsame, rfl, ?_, fun rr hrr => ?_, fun hneg => ?_, fun rr hrr => ?_⟩
    · rw [age_records, map_map]
      refine map_congr_left fun rr _ => ?_
      simp [Record.age, toNat_saturatingSub, hsecs]
    · exact hlive.trans_le (Nat.mul_le_mul_right _ (hrecords' rr hrr))
    · obtain ⟨rr, hrr, minimum, rest, hdata, hle⟩ := hnega hneg
      exact ⟨rr, hrr, minimum, rest, hdata, hlive.trans_le (Nat.mul_le_mul_right _ hle)⟩
    · rw [age_records] at hrr
      obtain ⟨old, hold, rfl⟩ := mem_map.mp hrr
      have hle := hrecords' old hold
      simp only [Record.age, toNat_saturatingSub, hsecs]
      omega
  · obtain ⟨a, -, hkeeps⟩ := hsound.kept e he
    refine ⟨a.message, hkeeps.parses, ?_⟩
    have hfit := hkeeps.fit
    simp only [unfit, Bool.or_eq_false_iff, Bool.not_eq_false', decide_eq_true_eq,
      Option.isSome_eq_false_iff, Option.isNone_iff_eq_none] at hfit
    exact ⟨hfit.1.1.1, hfit.1.1.2, hfit.2⟩
  · obtain ⟨r, c', hans, -⟩ := answered_spec hsound ⟨request, response, httpAge, now⟩
    rw [show answered codec w.cache request response httpAge now = some (r, c') from hans]
    exact nofun

/-- A library that knows the messages of a list, each by its place. -/
def Codec.ofList (known : List Message) : Codec where
  toVec m := (known.idxOf? m).map (replicate · 0)
  fromVec b := known[b.length]?
  faithful m b _ h := by
    obtain ⟨i, hi, rfl⟩ := Option.map_eq_some_iff.mp h
    obtain ⟨hlt, hm, -⟩ := findIdx?_eq_some_iff_getElem.mp hi
    rw [length_replicate, getElem?_eq_getElem hlt, eq_of_beq hm]

/-- A request for an address. -/
def addressRequest (id : UInt16) : Message :=
  ⟨id, .query, 0, .noError, false, false, [⟨[97], 1⟩], [], [], [], none, none, []⟩

def addressAnswer : Answer where
  request := addressRequest 7
  response := { addressRequest 0 with
    messageType := .response
    answers := [⟨[97], 5, 300, .other [98]⟩, ⟨[98], 1, 60, .other [10, 0, 0, 1]⟩] }
  httpAge := 0
  time := second

def addressCodec : Codec := .ofList [addressRequest 0, addressAnswer.message]

theorem addressAnswer_parsed : addressAnswer.Parsed addressCodec :=
  ⟨⟨[], _, rfl, rfl⟩, ⟨[0], _, rfl, rfl⟩⟩

/-- The answer is kept, and three seconds and a half later it is handed out to
a request with another id. -/
theorem dns_cache_sound_hit :
    let w := DnsWorld.run addressCodec [.answered addressAnswer addressAnswer_parsed]
    let hit := { age addressAnswer.message 3 with id := 9 }
    (lookup addressCodec w.cache (addressRequest 9) (9 * second / 2)).1 = some hit ∧
      hit.answers.map Record.ttl = [297, 57] ∧ ∀ rr ∈ hit.records, 1 ≤ rr.ttl.toNat := by
  intro w hit
  have hhit : (lookup addressCodec w.cache (addressRequest 9) (9 * second / 2)).1 = some hit := by
    decide +kernel
  obtain ⟨a, -, -, -, -, -, -, hpositive⟩ := (dns_cache_sound addressCodec
    [.answered addressAnswer addressAnswer_parsed]).1 (addressRequest 9) (9 * second / 2) hit
      ⟨[], _, rfl, rfl⟩ hhit
  exact ⟨hhit, by decide, hpositive⟩

end Drv.Net.DnsCache
