import PooledPackets.Config
import PooledPackets.Document.Decoding

/-!
# Configurations in documents

The names under which the settings of a pool stand in a document. Every setting
may be left out and has its default then; other names are refused.
-/

namespace PooledPackets

open Document

def ReassemblyLimits.shape : RecordShape ReassemblyLimits where
  title := "struct ReassemblyConfig"
  closed := true
  blank := {}
  fields := [
    .of "hold_limit" false .word
      fun limits value => { limits with holdLimit := value },
    .of "max_datagrams" false .word
      fun limits value => { limits with maxDatagrams := value },
    .of "timeout" false .duration
      fun limits value => { limits with timeout := value }]

def StackProfile.shape : RecordShape StackProfile where
  title := "struct StackProfile"
  closed := true
  blank := {}
  fields := [
    .of "ipv6" false .boolean
      fun stack value => { stack with ipv6 := value },
    .of "secure" false .boolean
      fun stack value => { stack with secure := value },
    .of "extended_notify" false .boolean
      fun stack value => { stack with extendedNotify := value },
    .of "ip_packet_filter" false .boolean
      fun stack value => { stack with ipPacketFilter := value },
    .of "dns_client_packet_pool" false .boolean
      fun stack value => { stack with dnsClientPacketPool := value },
    .of "sntp_min_stratum" false .byte
      fun stack value => { stack with sntpMinStratum := value },
    .of "link_ptp_send" false .word32
      fun stack value => { stack with linkPtpSend := value }]

def ByteOrder.names : List (String × ByteOrder) :=
  [("little", .little), ("big", .big)]

def FaultPolicy.names : List (String × FaultPolicy) :=
  [("halt", .halt), ("panic", .panic)]

def Config.shape : RecordShape Config where
  title := "struct BufferConfig"
  closed := true
  blank := {}
  fields := [
    .of "name" false .string
      fun config value => { config with name := value },
    .of "segment_capacity" false .size
      fun config value => { config with segmentCapacity := value },
    .of "segment_count" false .word
      fun config value => { config with segmentCount := value },
    .of "header_reserve" false .size
      fun config value => { config with headerReserve := value },
    .of "trailer_reserve" false .size
      fun config value => { config with trailerReserve := value },
    .of "alignment" false (.optional .word)
      fun config value => { config with alignment := value },
    .of "fragmentation" false .boolean
      fun config value => { config with fragmentation := value },
    .of "chaining" false .boolean
      fun config value => { config with chaining := value },
    .of "endianness" false (.variant ByteOrder.names)
      fun config value => { config with byteOrder := value },
    .of "error_checking" false .boolean
      fun config value => { config with errorChecking := value },
    .of "fault_policy" false (.variant FaultPolicy.names)
      fun config value => { config with faultPolicy := value },
    .of "reassembly" false ReassemblyLimits.shape.decoder
      fun config value => { config with reassembly := value },
    .of "stack" false StackProfile.shape.decoder
      fun config value => { config with stack := value }]

end PooledPackets
