import StartPage.Proofs.Store.Acts
import StartPage.Proofs.Store.Durability

/-!
What a store writes. Only turns of its writer touch the place, and under the store's key they put
what the codec makes of stamped settings; whatever is refused or scheduled, and whoever listens.
-/
namespace StartPage

open Migration (Chain)

/-- Whatever the writer writes, now or later, is what some settings are encoded as. -/
structure Writer.Encodes (key : String) (encode : Settings → Option Bytes) (writer : Writer) :
    Prop where
  keyed : writer.key = key
  encoding : ∀ settings bytes, writer.encode settings = some bytes → encode settings = some bytes
  writing : ∀ attempt, writer.activity = .writing attempt → ∀ bytes, attempt.bytes = some bytes →
    encode attempt.revision.settings = some bytes

namespace Writer.Encodes

variable {Place : Type} [Backend Place] {key : String} {encode : Settings → Option Bytes}
variable {writer after : Writer} {now delay : Nat} {place left : Place}

theorem begin (encodes : writer.Encodes key encode) (revision : Revision) (sequel : Sequel) :
    (writer.begin now delay revision sequel).Encodes key encode where
  keyed := encodes.keyed
  encoding := encodes.encoding
  writing := by
    rintro attempt ⟨⟩ bytes encoded
    exact encodes.encoding _ _ encoded

theorem step (encodes : writer.Encodes key encode)
    (step : Step now delay writer place after left) : after.Encodes key encode := by
  cases step with
  | finish =>
    rename_i attempt _ _
    obtain ⟨succeeded, same⟩ := writer.finish_eq attempt place
    rw [same]
    refine { encodes with writing := fun other still => ?_ }
    cases sequel : attempt.sequel <;> rw [sequel] at still <;> cases still
  | move _ move =>
    cases move with
    | receive | answer => exact { encodes with }
    | stop => exact { encodes with writing := nofun }
    | expire | drain => exact encodes.begin _ _
    | flush =>
      rename_i revision rest _ _
      have popped : ({ writer with queue := rest } : Writer).Encodes key encode :=
        { encodes with }
      exact popped.begin _ _

theorem schedule (encodes : writer.Encodes key encode) (settings : Settings) :
    (writer.schedule settings).Encodes key encode := by
  unfold Writer.schedule Writer.send
  split <;> exact { encodes with }

theorem flush (encodes : writer.Encodes key encode) : writer.flush.Encodes key encode := by
  unfold Writer.flush Writer.send
  split <;> exact { encodes with }

theorem place_cases (encodes : writer.Encodes key encode)
    (step : Step now delay writer place after left) :
    left = place ∨ ∃ settings bytes, encode settings = some bytes ∧
      left = (Backend.write place key bytes).1 := by
  cases step with
  | move => exact .inl rfl
  | finish writing =>
    rename_i attempt _
    cases written : attempt.bytes with
    | none => exact .inl (by simp only [Writer.finish, written])
    | some bytes =>
      refine .inr ⟨_, bytes, encodes.writing attempt writing bytes written, ?_⟩
      rw [← encodes.keyed]
      simp only [Writer.finish, written]
      split <;> rename_i same <;> rw [same]

end Writer.Encodes

namespace Store

variable {Place : Type} [Backend Place] {disturb : Place → Place → Prop} {store after : Store}
variable {place left : Place}

def Writes (store : Store) : Prop :=
  ∀ writer, store.writer = some writer → writer.Encodes store.config.key store.encode

theorem schedule_writes (writes : store.Writes) (settings : Settings) :
    ({ store with settings }.schedule).Writes := by
  intro writer present
  obtain ⟨before, found, rfl⟩ := Option.map_eq_some_iff.mp present
  exact (writes before found).schedule settings

theorem Deed.writes (deed : Deed disturb store place after left) (writes : store.Writes) :
    after.Writes := by
  cases deed with
  | commit _ request =>
    rcases store.commit_cases request with same | ⟨patch, _, same⟩ | ⟨patch, _, same⟩ <;> rw [same]
    · exact writes
    · exact writes
    · exact schedule_writes writes _
  | begin | disturb => exact writes
  | ready =>
    let loaded := (store.readBack (Backend.read place store.config.key)).1
    have opening : (store.opening loaded).Writes := by
      rintro writer ⟨⟩
      exact ⟨rfl, fun _ _ encoded => encoded, nofun⟩
    rw [becomeReady_eq]
    split
    · exact schedule_writes opening _
    · exact opening
  | writer present step =>
    rintro writer ⟨⟩
    exact (writes _ present).step step
  | close present =>
    rintro writer ⟨⟩
    exact { writes _ present with }
  | flush =>
    intro writer present
    obtain ⟨before, found, rfl⟩ := Option.map_eq_some_iff.mp present
    exact (writes before found).flush
  | refuse accepts =>
    intro writer present
    obtain ⟨before, found, rfl⟩ := Option.map_eq_some_iff.mp present
    exact { writes before found with
      encoding := fun _ _ encoded => (Option.ite_none_right_eq_some.mp encoded).2 }

end Store

namespace Timeline

variable {Place : Type} [Backend Place]

theorem occur_place {time : Timeline Place} (writes : time.store.Writes) {act : Act Place}
    (undisturbed : ∀ change, act ≠ .disturb change) :
    (time.occur act).place = time.place ∨
      ∃ settings bytes, time.store.encode settings = some bytes ∧
        (time.occur act).place = (Backend.write time.place time.store.config.key bytes).1 := by
  have called {called : Timeline Place} (kept : called.place = time.place) :
      (time.call called).place = time.place := by
    rcases time.call_cases called with same | ⟨-, same⟩ <;> rw [same]
    exact kept
  cases act with
  | update | load | flush => exact .inl (called rfl)
  | cancel | listen | release | wait | pace | refuse => exact .inl rfl
  | disturb change => exact absurd rfl (undisturbed change)
  | turn task =>
    rw [occur]
    cases taken : time.turn? task with
    | none => exact .inl rfl
    | some after =>
      cases turn?_turn taken with
      | writer present step => exact (writes _ present).place_cases step
      | gate | close => exact .inl rfl

/-- Whatever has happened to a new store, nothing is written next but stamped settings. -/
theorem perform_writes {config : Config} {chain : Chain} {host : Host} {made : Store}
    (new : Store.new config chain host = .ok made) (codec : Codec) (place : Place)
    (acts : List (Act Place)) {act : Act Place} (undisturbed : ∀ change, act ≠ .disturb change) :
    let time := (start (made.withCodec codec) place).perform acts
    (time.occur act).place = time.place ∨
      ∃ settings bytes, codec.encode (chain.stamp settings) = some bytes ∧
        (time.occur act).place = (Backend.write time.place config.key bytes).1 := by
  intro time
  have fresh : (made.withCodec codec).Fresh := ⟨_, _, _, _, codec, new, rfl⟩
  have run : Run (fun _ _ => True) (start (made.withCodec codec) place) time :=
    perform_run .start acts
  have life := (run.life fresh.writer).1
  have madeWith : (made.withCodec codec).MadeWith config chain codec :=
    ⟨(Store.madeWith_of_new new).1, (Store.madeWith_of_new new).2.1, rfl⟩
  obtain ⟨sameConfig, sameChain, sameCodec⟩ := life.keep _ madeWith fun deed => deed.madeWith
  have writes : time.store.Writes := life.keep (fun store _ => store.Writes)
    (fun _ present => nomatch fresh.writer.symm.trans present) fun deed => deed.writes
  have next := occur_place writes undisturbed
  simp only [Store.encode, sameConfig, sameChain, sameCodec] at next
  exact next

end Timeline
end StartPage
