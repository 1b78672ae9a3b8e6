import Gazette.Blog.Records
import Gazette.Proofs.Bucket.Representation
import Gazette.Proofs.Wire

set_option autoImplicit false

/-! # Records that read back

The rules for the fields of a record keep its texts short, so a valid record is read back from
what was written for it.
-/

namespace Gazette

open Codec

theorem readsBack_bio {bio : String} (h : Field.bio bio = .ok ()) : text.ReadsBack bio := by
  unfold Field.bio at h
  split at h
  · rename_i none_given
    rw [String.isEmpty_iff.1 none_given]
    exact readsBack_text (by decide)
  · exact readsBack_of_check h (by decide)

instance : LawfulRecord User where
  id_withId _ _ := rfl

theorem User.readable {user : User} (valid : Record.validate user = .ok ()) :
    Record.Readable user := by
  have checked := ValidationErrors.result_ofChecks.1 valid
  simp only [List.forall_mem_cons] at checked
  obtain ⟨-, hname, hbio, -⟩ := checked
  have reads : User.codec.ReadsBack user := by
    refine ReadsBack.map ?_ rfl
    exact (readsBack_optionalId _).pair
      ((readsBack_of_check hname (by decide)).pair ((readsBack_bio hbio).pair (readsBack_time _)))
  exact reads.read_encode

theorem User.storable (user : User) : Record.Storable user :=
  fun _ valid => readable valid

instance : LawfulRecord Blog where
  id_withId _ _ := rfl

theorem Blog.readable {blog : Blog} (valid : Record.validate blog = .ok ()) :
    Record.Readable blog := by
  have checked := ValidationErrors.result_ofChecks.1 valid
  simp only [List.forall_mem_cons] at checked
  obtain ⟨-, -, htitle, hdescription, -⟩ := checked
  have reads : Blog.codec.ReadsBack blog := by
    refine ReadsBack.map ?_ rfl
    exact (readsBack_optionalId _).pair ((readsBack_address _).pair
      ((readsBack_of_check htitle (by decide)).pair
        ((readsBack_of_check hdescription (by decide)).pair (readsBack_time _))))
  exact reads.read_encode

theorem Blog.storable (blog : Blog) : Record.Storable blog :=
  fun _ valid => readable valid

instance : LawfulRecord Article where
  id_withId _ _ := rfl

theorem Article.readable {article : Article} (valid : Record.validate article = .ok ()) :
    Record.Readable article := by
  have checked := ValidationErrors.result_ofChecks.1 valid
  simp only [List.forall_mem_cons] at checked
  obtain ⟨-, -, -, htitle, hcontent, -⟩ := checked
  have reads : Article.codec.ReadsBack article := by
    refine ReadsBack.map ?_ rfl
    exact (readsBack_optionalId _).pair ((readsBack_recordId _).pair ((readsBack_address _).pair
      ((readsBack_of_check htitle (by decide)).pair
        ((readsBack_of_check hcontent (by decide)).pair
          ((readsBack_word64 _).pair ((readsBack_word64 _).pair ((readsBack_time _).pair
            (readsBack_optional fun t _ => readsBack_time t))))))))
  exact reads.read_encode

theorem Article.storable (article : Article) : Record.Storable article :=
  fun _ valid => readable valid

instance : LawfulRecord Comment where
  id_withId _ _ := rfl

theorem Comment.readable {comment : Comment} (valid : Record.validate comment = .ok ()) :
    Record.Readable comment := by
  have checked := ValidationErrors.result_ofChecks.1 valid
  simp only [List.forall_mem_cons] at checked
  obtain ⟨-, -, -, hcontent, -⟩ := checked
  have reads : Comment.codec.ReadsBack comment := by
    refine ReadsBack.map ?_ rfl
    exact (readsBack_optionalId _).pair ((readsBack_recordId _).pair ((readsBack_address _).pair
      ((readsBack_of_check hcontent (by decide)).pair (readsBack_time _))))
  exact reads.read_encode

theorem Comment.storable (comment : Comment) : Record.Storable comment :=
  fun _ valid => readable valid

instance : LawfulRecord Like where
  id_withId _ _ := rfl

theorem Like.readable (like : Like) : Record.Readable like := by
  have reads : Like.codec.ReadsBack like := by
    refine ReadsBack.map ?_ rfl
    exact (readsBack_optionalId _).pair ((readsBack_recordId _).pair
      ((readsBack_address _).pair (readsBack_time _)))
  exact reads.read_encode

theorem Like.storable (like : Like) : Record.Storable like :=
  fun _ _ => readable _

instance : LawfulRecord DeletionTicket where
  id_withId _ _ := rfl

theorem DeletionTicket.readable (ticket : DeletionTicket) : Record.Readable ticket := by
  have reads : DeletionTicket.codec.ReadsBack ticket := by
    refine ReadsBack.map ?_ rfl
    exact (readsBack_optionalId _).pair ((readsBack_recordId _).pair (readsBack_address _))
  exact reads.read_encode

theorem DeletionTicket.storable (ticket : DeletionTicket) : Record.Storable ticket :=
  fun _ _ => readable _

end Gazette
