import TenantGate.Proofs.NamedTenants
import TenantGate.Proofs.StoredStreams
/-!
# Deflated submissions

A client may send a stream that stores its document, and say so.  It is then served as if it had
sent the document itself: the same requests go out, and the same response comes back.
-/

namespace TenantGate

def Headers.bodyFields : List String := ["content-encoding", "content-length", "transfer-encoding"]

/-- Two requests with one document.  The first holds a stream that stores it, and says so; the second
holds the document as it is. -/
structure Request.Deflates (deflated plain : Request) : Prop where
  uri : deflated.uri = plain.uri
  headers : ∀ name ∉ Headers.bodyFields, deflated.headers.values name = plain.headers.values name
  coded : deflated.headers.get? "content-encoding" = some (Bytes.ofText "deflate")
  uncoded : plain.headers.get? "content-encoding" = none
  complete : deflated.body.complete = plain.body.complete
  stores : Zlib.IsStoredStream plain.body.bytes deflated.body.bytes

variable {deflated plain : Request}

namespace Request.Deflates

theorem get?_eq (h : deflated.Deflates plain) {name : String} (hname : name ∉ Headers.bodyFields) :
    deflated.headers.get? name = plain.headers.get? name := by
  rw [Headers.get?, Headers.get?, h.headers name hname]

theorem resolve_eq (h : deflated.Deflates plain) (r : Resolver) (now : Int) :
    r.resolve now deflated = r.resolve now plain := by
  have credential : r.credential deflated = r.credential plain :=
    Resolver.credential_congr h.uri (h.get?_eq (by decide))
  have named : Resolver.namedTenant deflated.headers = Resolver.namedTenant plain.headers := by
    simp only [Resolver.namedTenant, h.get?_eq (show Resolver.tenantHeader.text ∉ _ by decide)]
  simp only [Resolver.resolve, Resolver.verifiedTenant, credential, named]

theorem check_eq (h : deflated.Deflates plain) :
    ContentType.check deflated.headers = ContentType.check plain.headers := by
  simp only [ContentType.check, h.get?_eq (show "content-type" ∉ _ by decide)]

theorem document_eq (h : deflated.Deflates plain) :
    Ingest.document deflated.headers deflated.body = Ingest.document plain.headers plain.body := by
  have coded : Ingest.isDeflated deflated.headers = true := by
    rw [Ingest.isDeflated, h.coded]
    exact beq_self_eq_true _
  have uncoded : Ingest.isDeflated plain.headers = false := by
    rw [Ingest.isDeflated, h.uncoded]
    rfl
  cases hcomplete : plain.body.complete with
  | false => simp [Ingest.document, Body.read?, h.complete, hcomplete]
  | true =>
    simp [Ingest.document, Body.read?, h.complete, hcomplete, coded, uncoded,
      Zlib.decode_of_isStoredStream h.stores]

end Request.Deflates

namespace Ingest

theorem accept_of_deflates (h : deflated.Deflates plain) (i : Ingest) (kind : Submission)
    (now : Int) :
    i.accept kind now deflated = i.accept kind now plain := by
  simp only [accept, h.resolve_eq, h.check_eq, h.document_eq]

/-- A stream that stores a document inflates to it, and whoever sends the stream is served like who
sends the document, for every tenant, endpoint and network, and also if either is refused. -/
theorem handler_of_deflates (h : deflated.Deflates plain) (i : Ingest) (kind : Submission)
    (moment : Moment) :
    Zlib.decode deflated.body.bytes = .ok plain.body.bytes ∧
      i.handler kind moment deflated = i.handler kind moment plain := by
  refine ⟨Zlib.decode_of_isStoredStream h.stores, ?_⟩
  simp only [handler, accept_of_deflates h]

namespace Sample

def pieces : List Bytes :=
  [Bytes.ofText "\x7b\"series\": [", [],
    Bytes.ofText "\x7b\"metric\": \"up\", \"points\": [[1, 0]]\x7d]\x7d"]

def inPieces : Request :=
  { submitted with
    headers := ⟨(.contentEncoding, Bytes.ofText "deflate") :: submitted.headers.fields⟩
    body := ⟨Zlib.storedStream pieces, true⟩ }

theorem deflates_submitted : inPieces.Deflates submitted where
  uri := rfl
  headers := by
    intro name hname
    have other : ¬"content-encoding" = name := by
      rintro rfl
      exact hname (by decide)
    simp [inPieces, Headers.values, other]
  coded := rfl
  uncoded := rfl
  complete := rfl
  stores := by
    have whole : submitted.body.bytes = pieces.flatten := by decide +kernel
    have short : ∀ data ∈ pieces, data.length ≤ 65535 := by decide +kernel
    rw [whole]
    exact Zlib.isStoredStream_storedStream short

end Sample

/-- A submission in three blocks, which goes out twice as the first answer leads elsewhere. -/
theorem handler_of_deflates_of_pieces :
    Sample.inPieces.Deflates Sample.submitted ∧
      Zlib.decode (Zlib.storedStream Sample.pieces) = .ok Sample.submitted.body.bytes ∧
      Sample.ingest.handler .series ⟨0, Sample.elsewhere⟩ Sample.inPieces
        = Sample.ingest.handler .series ⟨0, Sample.elsewhere⟩ Sample.submitted ∧
      (Sample.ingest.handler .series ⟨0, Sample.elsewhere⟩ Sample.inPieces).sent.length = 2 := by
  have served := handler_of_deflates Sample.deflates_submitted Sample.ingest .series
    ⟨0, Sample.elsewhere⟩
  refine ⟨Sample.deflates_submitted, served.1, served.2, ?_⟩
  rw [served.2]
  decide +kernel

end Ingest
end TenantGate
