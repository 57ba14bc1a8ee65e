import Mathlib.Data.List.Chain
import Mathlib.Data.Set.Operations

namespace Library
namespace HashLinks

/-!
# Lists linked by digests

Every record names the digest of the record before it.  Where digests tell the records apart,
the newest record of such a list determines all records before it.
-/

variable {Record Digest : Type*} (digest parent : Record -> Digest)

/-- The newest record comes first. -/
def Linked (records : List Record) : Prop := records.IsChain fun later earlier => parent later = digest earlier

variable {digest parent} {records others : List Record}

theorem Linked.tail {newest : Record} (linked : Linked digest parent (newest :: records)) :
    Linked digest parent records := List.IsChain.tail linked

/-- Two lists whose newest records have one digest continue alike until one of them ends. -/
theorem prefix_of_same_digest {newest other : Record} (known : Set Record) (apart : Set.InjOn digest known)
    (linked : Linked digest parent (newest :: records)) (alsoLinked : Linked digest parent (other :: others))
    (listed : forall record, record ∈ newest :: records -> record ∈ known)
    (alsoListed : forall record, record ∈ other :: others -> record ∈ known)
    (same : digest newest = digest other) :
    newest :: records <+: other :: others ∨ other :: others <+: newest :: records := by
  induction records generalizing newest other others with
  | nil =>
      have equal : newest = other :=
        apart (listed newest (List.mem_singleton_self newest)) (alsoListed other List.mem_cons_self) same
      subst equal
      exact Or.inl ⟨others, rfl⟩
  | cons earlier records inductionHypothesis =>
      have equal : newest = other := apart (listed newest List.mem_cons_self) (alsoListed other List.mem_cons_self) same
      subst equal
      cases others with
      | nil => exact Or.inr ⟨earlier :: records, rfl⟩
      | cons before others =>
          have link : parent newest = digest earlier := (List.isChain_cons_cons.mp linked).1
          have alsoLink : parent newest = digest before := (List.isChain_cons_cons.mp alsoLinked).1
          have continues := inductionHypothesis linked.tail alsoLinked.tail
            (fun record member => listed record (List.mem_cons_of_mem newest member))
            (fun record member => alsoListed record (List.mem_cons_of_mem newest member)) (link.symm.trans alsoLink)
          simpa only [List.cons_prefix_cons, true_and] using continues

/-- Lists of one length are equal if their newest records have one digest. -/
theorem eq_of_same_digest {newest other : Record} (known : Set Record) (apart : Set.InjOn digest known)
    (linked : Linked digest parent (newest :: records)) (alsoLinked : Linked digest parent (other :: others))
    (listed : forall record, record ∈ newest :: records -> record ∈ known)
    (alsoListed : forall record, record ∈ other :: others -> record ∈ known)
    (same : digest newest = digest other) (long : records.length = others.length) :
    newest :: records = other :: others := by
  have long : (newest :: records).length = (other :: others).length := congrArg Nat.succ long
  rcases prefix_of_same_digest known apart linked alsoLinked listed alsoListed same with before | after
  · exact before.eq_of_length long
  · exact (after.eq_of_length long.symm).symm

end HashLinks
end Library
