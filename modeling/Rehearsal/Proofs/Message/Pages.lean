import Rehearsal.Message.Stateless
import Rehearsal.Proofs.Wire.RoundTrip

/-!
# Requests for pages and pages on the wire

Both come back from their bytes as they were sent, and a request is hardly longer than its token.
-/

namespace Rehearsal.Message

open Wire

namespace PaginationRequest

theorem writable_of_mem_records {request : PaginationRequest}
    (htoken : (Text.Utf8.encode request.pageToken).length < UInt64.size) {record : Record}
    (h : record ∈ Message.records request) : record.Writable := by
  simp only [Message.records, List.mem_append] at h
  rcases h with ((h | h) | h) | h
  · exact Record.writable_of_mem_ofWord (by decide) h
  · exact Record.writable_of_mem_ofWord (by decide) h
  · exact Record.writable_of_mem_ofBytes (by decide) htoken h
  · exact Record.writable_of_mem_ofWord (by decide) h

theorem mergeAll_records (room : Nat) (request : PaginationRequest) :
    mergeAll (Message.merge room) Message.empty (Message.records request) = .ok request := by
  obtain ⟨maxResponse, pageSize, pageToken, pageSizeOverride⟩ := request
  have first : mergeAll (Message.merge room) (Message.empty : PaginationRequest)
      (Record.ofInt32 1 maxResponse) = .ok { maxResponse } :=
    mergeAll_ofInt32 (mk · 0 "" 0) (fun _ => rfl) rfl maxResponse
  have second : mergeAll (Message.merge room) ({ maxResponse } : PaginationRequest)
      (Record.ofInt32 2 pageSize) = .ok { maxResponse, pageSize } :=
    mergeAll_ofInt32 (mk maxResponse · "" 0) (fun _ => rfl) rfl pageSize
  have third : mergeAll (Message.merge room) ({ maxResponse, pageSize } : PaginationRequest)
      (Record.ofText 3 pageToken) = .ok { maxResponse, pageSize, pageToken } :=
    mergeAll_ofText (mk maxResponse pageSize · 0) (fun _ => rfl) rfl pageToken
  have fourth : mergeAll (Message.merge room)
      ({ maxResponse, pageSize, pageToken } : PaginationRequest)
      (Record.ofInt32 4 pageSizeOverride) =
        .ok ⟨maxResponse, pageSize, pageToken, pageSizeOverride⟩ :=
    mergeAll_ofInt32 (mk maxResponse pageSize pageToken) (fun _ => rfl) rfl pageSizeOverride
  simp only [Message.records, List.append_assoc]
  rw [mergeAll_append first, mergeAll_append second, mergeAll_append third, fourth]

theorem decode_encode {request : PaginationRequest}
    (htoken : (Text.Utf8.encode request.pageToken).length < UInt64.size) :
    decode PaginationRequest (encode request) = .ok request :=
  Wire.decode_encode (fun _ => writable_of_mem_records htoken) (mergeAll_records _ request)

theorem length_encode_le {request : PaginationRequest}
    (htoken : (Text.Utf8.encode request.pageToken).length < UInt64.size) :
    (encode request).length ≤ 80 + (Text.Utf8.encode request.pageToken).length := by
  have first := Record.length_writeAll_ofWord_le (show 1 < Record.maxField by decide)
    request.maxResponse.toInt64.toUInt64
  have second := Record.length_writeAll_ofWord_le (show 2 < Record.maxField by decide)
    request.pageSize.toInt64.toUInt64
  have third := Record.length_writeAll_ofBytes_le (show 3 < Record.maxField by decide) htoken
  have fourth := Record.length_writeAll_ofWord_le (show 4 < Record.maxField by decide)
    request.pageSizeOverride.toInt64.toUInt64
  simp only [encode, Message.records, Record.writeAll_append, List.length_append, Record.ofInt32,
    Record.ofInt64, Record.ofText]
  omega

end PaginationRequest

namespace PaginationResponse

theorem writable_of_mem_records {response : PaginationResponse}
    (hresponses : response.responses.length < 0x1000000)
    (htoken : (Text.Utf8.encode response.nextPageToken).length < UInt64.size) {record : Record}
    (h : record ∈ Message.records response) : record.Writable := by
  simp only [Message.records, List.mem_append] at h
  rcases h with h | h
  · have hbytes : (pack response.responses).length < UInt64.size := by
      have hpack := length_pack_le response.responses
      unfold UInt64.size
      omega
    exact Record.writable_of_mem_ofBytes (by decide) hbytes h
  · exact Record.writable_of_mem_ofBytes (by decide) htoken h

theorem mergeAll_records (room : Nat) (response : PaginationResponse) :
    mergeAll (Message.merge room) Message.empty (Message.records response) = .ok response := by
  obtain ⟨responses, nextPageToken⟩ := response
  have first : mergeAll (Message.merge room) (Message.empty : PaginationResponse)
      (Record.ofPacked 1 responses) = .ok { responses } :=
    mergeAll_ofPacked (mk · "") (fun _ => rfl) rfl responses
  have second : mergeAll (Message.merge room) ({ responses } : PaginationResponse)
      (Record.ofText 2 nextPageToken) = .ok ⟨responses, nextPageToken⟩ :=
    mergeAll_ofText (mk responses) (fun _ => rfl) rfl nextPageToken
  simp only [Message.records]
  rw [mergeAll_append first, second]

theorem decode_encode {response : PaginationResponse}
    (hresponses : response.responses.length < 0x1000000)
    (htoken : (Text.Utf8.encode response.nextPageToken).length < UInt64.size) :
    decode PaginationResponse (encode response) = .ok response :=
  Wire.decode_encode (fun _ => writable_of_mem_records hresponses htoken)
    (mergeAll_records _ response)

end PaginationResponse

end Rehearsal.Message
